import StreamCall.Proofs.Server.Standard
import StreamCall.Proofs.Token
import StreamCall.Server.Accepted
import StreamCall.Server.Plan

/-!
# Handlers that keep to their streams

A handler is given a token, and can make others below it.  It is local if these are all the tokens
that it uses (`Handler.IsLocal`), so that it can neither cancel what is not its own nor see whether
that has been cancelled.  Handlers made from functions of the context and the request are local
(`unary_isLocal`), and the middlewares that come with a server keep handlers so
(`Standard.keepsLocal`).
-/

namespace StreamCall

open Middleware

variable {ν α : Type}

/-! ### Local programs -/

/-- Whether an operation uses no other tokens than those below one. -/
def AmbientOp.IsBelow (t : Token) : AmbientOp ν → Prop
  | .isCancelled u => t.IsOver u
  | .cancel u => t.IsOver u
  | .branch u => t.IsOver u
  | _ => True

/-- That a fresh token is below the one it was made from. -/
def AmbientOp.Tells : (op : AmbientOp ν) → op.Answer → Prop
  | .branch u, (v : Token) => u.IsOver v
  | _, _ => True

/-- That no other tokens are used than those below one. -/
def Ambient.below (t : Token) : Program.Terms (Ambient ν) where
  allows := AmbientOp.IsBelow t
  tells := AmbientOp.Tells

/-- That no other tokens are used than those below the one of the stream. -/
def Service.below (t : Token) : Program.Terms (Service ν) where
  allows
    | .inl op => op.IsBelow t
    | .inr _ => True
  tells
    | .inl op, answer => AmbientOp.Tells op answer
    | .inr .token, (answer : Token) => answer = t
    | .inr _, _ => True

/-- A handler that uses no other tokens than its own. -/
def Handler.IsLocal (handler : Handler ν) : Prop :=
  ∀ ctx, (handler ctx).Obeys (Service.below ctx.token) fun _ => True

/-- A middleware that makes local handlers from local ones. -/
def Middleware.KeepsLocal (middleware : Middleware ν) : Prop :=
  ∀ handler : Handler ν, handler.IsLocal → (middleware handler).IsLocal

/-- What is installed for a local handler is local. -/
theorem Server.Plan.wrap_isLocal
    {plan : Server.Plan ν} (h : ∀ m ∈ plan.middlewares, m.KeepsLocal) {handler : Handler ν}
    (hhandler : handler.IsLocal) :
  (plan.wrap handler).IsLocal
  := by
  obtain ⟨config, middlewares⟩ := plan
  induction middlewares with
  | nil => exact hhandler
  | cons m ms ih =>
    exact h m List.mem_cons_self _ (ih fun m hm => h m (List.mem_cons_of_mem _ hm))

variable {t : Token}

theorem onStream_obeys (p : Stream.Use α) :
  (Serving.onStream p : Serving ν α).Obeys (Service.below t) fun _ => True
  :=
  .inr (fun _ => trivial) p

theorem onSurroundings_obeys
    {p : Program (Ambient ν) α} {wanted : α → Prop} (h : p.Obeys (Ambient.below t) wanted) :
  (Serving.onSurroundings p).Obeys (Service.below t) wanted
  :=
  h.inl (fun _ hop => hop) fun _ _ htold => htold

/-- Serving an accepted stream uses no other tokens than those below the one of the stream. -/
theorem serveAccepted_obeys
    {handler : Option (Handler ν)} (h : ∀ installed ∈ handler, installed.IsLocal) :
  (serveAccepted handler).Obeys (Service.below t) fun _ => True
  := by
  have hclose : ((Serving.onStream (Stream.ask .shutdown)).bind
      fun (_ : Except IoError Unit) => .done () : Serving ν Unit).Obeys (Service.below t)
      fun _ => True := (onStream_obeys _).bind fun _ _ => trivial
  cases handler with
  | none => exact hclose
  | some handler =>
    refine ⟨trivial, ?_⟩
    rintro token rfl
    exact (h handler rfl (.ofToken token)).bind fun _ _ => hclose

/-! ### Local handlers -/

/-- A handler made from a function is local if the function is. -/
theorem unary_isLocal
    {f : Unary ν}
    (h : ∀ ctx request, (f ctx request).Obeys (Ambient.below ctx.token) fun _ => True) :
  (unary f).IsLocal
  := by
  intro ctx
  rw [unary]
  split
  · trivial
  · next request _ =>
    apply (onSurroundings_obeys (h ctx request)).bind
    rintro (e | response) -
    · trivial
    · apply (onStream_obeys _).bind
      rintro (e | -) - <;> trivial

/-- A layer tells the token of the stream. -/
theorem underLayer_obeys (layer : Layer) (op : (Service ν).Op) (h : (Service.below t).allows op) :
  (Serving.underLayer layer op).Obeys (Service.below t) fun r => (Service.below t).tells op r.1
  := by
  rcases op with op | op
  · exact ⟨h, fun answer htold => htold⟩
  · cases op with
    | token => cases layer <;> exact ⟨trivial, fun answer htold => htold⟩
    | id | read | drain | write | flush | shutdown | cancelWrite | cancelRead | setReadDeadline
    | setWriteDeadline => exact onStream_obeys _

theorem withLayer_obeys
    (layer : Layer) {p : Serving ν α} {wanted : α → Prop}
    (hp : p.Obeys (Service.below t) wanted) :
  (Serving.withLayer layer p).Obeys (Service.below t) fun r => wanted r.1
  :=
  hp.through underLayer_obeys layer

theorem underSpan_obeys
    (id : RequestId) (op : (Service ν).Op) (h : (Service.below t).allows op) :
  (Serving.underSpan id () op).Obeys (Service.below t) fun r => (Service.below t).tells op r.1
  := by
  rcases op with op | op
  · cases op with
    | log event => exact ⟨trivial, fun _ _ => trivial⟩
    | note | random | now | isCancelled | cancel | branch | pause | hang =>
      exact ⟨h, fun answer htold => htold⟩
  · exact ⟨h, fun answer htold => htold⟩

theorem withSpan_obeys
    (id : RequestId) {p : Serving ν α} {wanted : α → Prop}
    (hp : p.Obeys (Service.below t) wanted) :
  (Serving.withSpan id p).Obeys (Service.below t) wanted
  :=
  (hp.through (fun _ => underSpan_obeys id) ()).bind fun _ h => h

theorem log_obeys (event : Event) :
  (Serving.log event : Serving ν Unit).Obeys (Service.below t) fun _ => True
  :=
  ⟨trivial, fun _ _ => trivial⟩

namespace Middleware

theorem requestIdOf_obeys (request : Request) :
  (requestIdOf request : Program (Ambient ν) RequestId).Obeys (Ambient.below t) fun _ => True
  := by
  rw [requestIdOf]
  split
  · trivial
  · exact ⟨trivial, fun _ _ => trivial⟩

theorem logBody_obeys (on : Bool) (name : String) (data : Bytes) (stream : Nat) :
  (logBody on name data stream : Serving ν Unit).Obeys (Service.below t) fun _ => True
  := by
  rw [logBody]
  split
  · exact log_obeys _
  · trivial

/-- The middlewares that come with a server keep handlers local. -/
theorem Standard.keepsLocal (part : Standard) :
  (part.middleware (ν := ν)).KeepsLocal
  := by
  intro next hnext ctx
  cases part with
  | errorHandler =>
    apply (onStream_obeys _).bind
    intro stream _
    apply (hnext ctx).bind
    rintro (e | -) -
    · apply (log_obeys _).bind
      intro _ _
      exact (onStream_obeys _).bind fun _ _ => trivial
    · trivial
  | maxBody limit =>
    exact (withLayer_obeys _ (hnext (ctx.withBodyLimit limit))).bind fun _ _ => trivial
  | decodeRequest =>
    apply (onStream_obeys _).bind
    rintro (e | envelope) -
    · trivial
    · dsimp only
      split
      · trivial
      · apply (onStream_obeys _).bind
        intro stream _
        exact (log_obeys _).bind fun _ _ => hnext (ctx.withRequest envelope.request)
  | attachRequestId =>
    dsimp only [middleware, Middleware.attachRequestId]
    split
    · trivial
    · apply (onSurroundings_obeys (requestIdOf_obeys _)).bind
      intro id _
      exact withSpan_obeys id (hnext (ctx.withRequestId id))
  | recovery => exact (hnext ctx).recover fun _ => trivial
  | logTraffic config =>
    apply (withLayer_obeys _ (hnext ctx)).bind
    rintro ⟨e | -, layer⟩ -
    · trivial
    · cases layer with
      | limited => trivial
      | tee read written =>
        apply (onStream_obeys _).bind
        intro stream _
        apply (logBody_obeys ..).bind
        intro _ _
        exact (logBody_obeys ..).bind fun _ _ => trivial

/-- So does the usual chain. -/
theorem defaultChain_keepsLocal (limit : Nat) :
  ∀ m ∈ defaultChain (ν := ν) limit, KeepsLocal m
  := by
  rw [Standard.defaultChain_eq]
  intro m hm
  obtain ⟨part, -, rfl⟩ := List.mem_map.mp hm
  exact part.keepsLocal

end Middleware

end StreamCall
