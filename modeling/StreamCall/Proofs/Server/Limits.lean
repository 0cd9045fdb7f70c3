import StreamCall.Proofs.Server.Standard

/-!
# Limits on bodies

Which of several limits counts is the last one in front of the part that decodes the request.
The handler behind it is called with no longer body (`serve_heeds_limit`), and this is all that
can be said: a smaller limit further out is forgotten (`serve_forgets_outer_limit`).
-/

namespace StreamCall

open Middleware

variable {ν α : Type}

/-! ### Notes -/

/-- Whether an operation leaves no note but such ones. -/
def Noting (allowed : ν → Prop) : (Service ν).Op → Prop
  | .inl (.note note) => allowed note
  | _ => True

/-- A program leaves no notes but those it may leave. -/
theorem Stage.notes_run_of_noting
    {allowed : ν → Prop} {p : Serving ν α} (h : p.Uses (Noting allowed)) (s : Stage ν) :
  ∃ new, (s.run p).2.world.notes = s.world.notes ++ new ∧ ∀ note ∈ new, allowed note
  := by
  induction p generalizing s with
  | done a => exact ⟨[], (List.append_nil _).symm, by simp⟩
  | panic q => exact ⟨[], (List.append_nil _).symm, by simp⟩
  | step op next ih =>
    cases op with
    | inl op =>
      have hstep := s.run_inl op next
      cases op with
      | note note =>
        obtain ⟨new, hnotes, hnew⟩ := ih () (h.2 ())
          { s with world := { s.world with notes := s.world.notes ++ [note] } }
        use note :: new
        constructor
        · rw [hstep]
          apply hnotes.trans
          simp
        · intro n hn
          obtain rfl | hn := List.mem_cons.mp hn
          · exact h.1
          · exact hnew n hn
      | pause | hang => exact ⟨[], by rw [hstep]; exact (List.append_nil _).symm, by simp⟩
      | log | random | now | isCancelled | cancel | branch =>
        rw [hstep]
        exact ih _ (h.2 _) _
    | inr op => exact ih _ (h.2 _) _

theorem onStream_noting (allowed : ν → Prop) (p : Stream.Use α) :
  (Serving.onStream p).Uses (Noting allowed)
  := by
  induction p with
  | done a => trivial
  | panic q => trivial
  | step op next ih => exact ⟨trivial, ih⟩

section

variable {allowed : ν → Prop} {p : Serving ν α} (h : p.Uses (Noting allowed))

include h

theorem withLayer_noting (layer : Layer) :
  (Serving.withLayer layer p).Uses (Noting allowed)
  := by
  apply h.through
  rintro layer (op | op) hop
  · exact ⟨hop, fun _ => trivial⟩
  · apply onStream_noting

theorem withSpan_noting (id : RequestId) :
  (Serving.withSpan id p).Uses (Noting allowed)
  := by
  apply Program.Uses.bind
  · apply h.through
    rintro _ (op | op) hop
    · cases op <;> exact ⟨hop, fun _ => trivial⟩
    · exact ⟨trivial, fun _ => trivial⟩
  · exact fun _ => trivial

end

/-! ### What is handed on -/

namespace Middleware.Standard

/-- Whether a part may call its handler with a context. -/
def Hands : Standard → Context → Context → Prop
  | .maxBody limit, ctx, ctx' => ctx' = ctx.withBodyLimit limit
  | .decodeRequest, ctx, ctx' => ∃ request : Request,
    (∀ limit, ctx.bodyLimit = some limit → request.body.length ≤ limit)
      ∧ ctx' = ctx.withRequest request
  | .attachRequestId, ctx, ctx' => ∃ id, ctx' = ctx.withRequestId id
  | _, ctx, ctx' => ctx' = ctx

theorem decodeRequest_noting
    {allowed : ν → Prop} {next : Handler ν} {ctx : Context}
    (h : ∀ ctx', decodeRequest.Hands ctx ctx' → (next ctx').Uses (Noting allowed)) :
  (Middleware.decodeRequest next ctx).Uses (Noting allowed)
  := by
  apply (onStream_noting allowed _).bind
  rintro (e | envelope)
  · trivial
  · dsimp only
    split
    · trivial
    · next hlimit =>
      refine ⟨trivial, fun stream => ⟨trivial, fun _ => ?_⟩⟩
      apply h
      refine ⟨envelope.request, ?_, rfl⟩
      intro limit hctx
      rw [hctx, Option.filter_eq_none_iff] at hlimit
      simpa using hlimit limit rfl

/-- A part leaves no notes but those that its handler leaves when it is called with a context that
the part may call it with. -/
theorem middleware_noting
    (part : Standard) {allowed : ν → Prop} {next : Handler ν} {ctx : Context}
    (h : ∀ ctx', part.Hands ctx ctx' → (next ctx').Uses (Noting allowed)) :
  (part.middleware next ctx).Uses (Noting allowed)
  := by
  cases part with
  | errorHandler =>
    refine ⟨trivial, fun stream => ?_⟩
    apply (h ctx rfl).bind
    rintro (e | _)
    · exact ⟨trivial, fun _ => ⟨trivial, fun _ => trivial⟩⟩
    · trivial
  | maxBody limit =>
    apply (withLayer_noting (h _ rfl) _).bind
    exact fun _ => trivial
  | decodeRequest => exact decodeRequest_noting h
  | attachRequestId =>
    cases hrequest : ctx.request with
    | none =>
      simp only [middleware, Middleware.attachRequestId, hrequest]
      trivial
    | some request =>
      simp only [middleware, Middleware.attachRequestId, hrequest]
      apply (requestIdOf_safe (fun _ => trivial) request).uses.bind
      intro id
      exact withSpan_noting (h _ ⟨id, rfl⟩) id
  | recovery => exact (h ctx rfl).recover fun _ => trivial
  | logTraffic config =>
    apply (withLayer_noting (h ctx rfl) _).bind
    rintro ⟨e | _, layer⟩
    · trivial
    · cases layer with
      | limited limit remaining => trivial
      | tee read written =>
        refine ⟨trivial, fun stream => ?_⟩
        apply (logBody_safe (fun _ => trivial) _ _ _ _).uses.bind
        intro _
        apply (logBody_safe (fun _ => trivial) _ _ _ _).uses.bind
        exact fun _ => trivial

/-- The limit that counts behind some parts, given the one that counts in front of them. -/
def limitBehind : List Standard → Option Nat → Option Nat
  | [], limit => limit
  | .maxBody limit :: parts, _ => limitBehind parts (some limit)
  | _ :: parts, limit => limitBehind parts limit

/-- Parts that do not decode leave the request as it is. -/
theorem chain_noting
    {parts : List Standard} (hparts : .decodeRequest ∉ parts) {handler : Handler ν}
    {allowed : ν → Prop} {ctx : Context}
    (h : ∀ ctx' : Context, ctx'.request = ctx.request → (handler ctx').Uses (Noting allowed)) :
  (chain (parts.map middleware) handler ctx).Uses (Noting allowed)
  := by
  induction parts generalizing ctx with
  | nil => exact h ctx rfl
  | cons part parts ih =>
    have hrest : .decodeRequest ∉ parts := fun hmem => hparts (List.mem_cons_of_mem _ hmem)
    apply part.middleware_noting
    intro ctx' hhands
    apply ih hrest
    intro ctx'' hrequest
    apply h ctx''
    rw [hrequest]
    cases part with
    | decodeRequest => exact (hparts List.mem_cons_self).elim
    | attachRequestId =>
      obtain ⟨id, rfl⟩ := hhands
      rfl
    | _ =>
      cases hhands
      rfl

/-- A request that is handed on by the part that decodes it is within the limit that counts. -/
theorem chain_decodeRequest_noting
    {outer inner : List Standard} (hinner : .decodeRequest ∉ inner) {handler : Handler ν}
    {allowed : ν → Prop} {limit : Nat}
    (h : ∀ (ctx' : Context) (request : Request), ctx'.request = some request →
      request.body.length ≤ limit → (handler ctx').Uses (Noting allowed))
    {ctx : Context} (hlimit : limitBehind outer ctx.bodyLimit = some limit) :
  (chain ((outer ++ .decodeRequest :: inner).map middleware) handler ctx).Uses (Noting allowed)
  := by
  induction outer generalizing ctx with
  | nil =>
    apply decodeRequest.middleware_noting
    rintro ctx' ⟨request, hbody, rfl⟩
    apply chain_noting hinner
    intro ctx' hrequest
    exact h ctx' request hrequest (hbody limit hlimit)
  | cons part outer ih =>
    apply part.middleware_noting
    intro ctx' hhands
    apply ih
    rw [← hlimit]
    cases part with
    | decodeRequest =>
      obtain ⟨request, _, rfl⟩ := hhands
      rfl
    | attachRequestId =>
      obtain ⟨id, rfl⟩ := hhands
      rfl
    | _ =>
      cases hhands
      rfl

end Middleware.Standard

/-- The handler with its calls noted. -/
def noted (handler : Handler Context) : Handler Context := fun ctx =>
  .step (.inl (.note ctx)) fun (_ : Unit) => handler ctx

/-- The handler behind the part that decodes the request is called with no longer body than the
limit that counts, which is the last one in front of that part. -/
theorem Stage.serve_heeds_limit
    {outer inner : List Standard} (hinner : .decodeRequest ∉ inner) {handler : Handler Context}
    (hhandler : ∀ ctx, (handler ctx).Uses Noteless) {ctx : Context} {limit : Nat}
    (hlimit : Standard.limitBehind outer ctx.bodyLimit = some limit) (s : Stage Context) :
  ∃ calls, (s.serve (chain ((outer ++ .decodeRequest :: inner).map Standard.middleware)
        (noted handler)) ctx).2.world.notes = s.world.notes ++ calls
    ∧ ∀ ctx' ∈ calls, ∃ request, ctx'.request = some request ∧ request.body.length ≤ limit
  := by
  apply notes_run_of_noting
  apply Standard.chain_decodeRequest_noting hinner _ hlimit
  intro ctx' request hrequest hbody
  refine ⟨⟨request, hrequest, hbody⟩, fun _ => ?_⟩
  apply (hhandler ctx').mono
  rintro (op | op) hop
  · cases op with
    | note note => cases hop
    | _ => trivial
  · trivial

/-- A body of eleven bytes. -/
def elevenBytes : Bytes := [0x65, 0x6c, 0x65, 0x76, 0x65, 0x6e, 0x62, 0x79, 0x74, 0x65, 0x73]

/-- A stream with a request with that body. -/
def elevenStage : Stage Context := .ofInput (fun _ => 0) 0 (Envelope.encodeWith elevenBytes [])

/-- A limit of ten bytes, and behind it what stands in front of the decoding part in the usual
chain for a hundred. -/
def twoLimits : List Standard := [.maxBody 10, .errorHandler, .maxBody 100]

/-- What stands behind the decoding part. -/
def innerParts : List Standard := [.attachRequestId, .recovery]

/-- A handler that does nothing. -/
def idle : Handler Context := fun _ => .done (.ok ())

theorem Stage.serve_heeds_limit_elevenBytes :
  (.decodeRequest ∉ innerParts
      ∧ (∀ ctx, (idle ctx).Uses Noteless)
      ∧ Standard.limitBehind twoLimits (default : Context).bodyLimit = some 100)
    ∧ ∃ calls, (elevenStage.serve (chain
          ((twoLimits ++ .decodeRequest :: innerParts).map Standard.middleware)
          (noted idle)) default).2.world.notes = elevenStage.world.notes ++ calls
      ∧ ∀ ctx ∈ calls, ∃ request, ctx.request = some request ∧ request.body.length ≤ 100
  := by
  have hinner : .decodeRequest ∉ innerParts := by decide
  have hidle : ∀ ctx, (idle ctx).Uses Noteless := fun _ => trivial
  have hlimit : Standard.limitBehind twoLimits (default : Context).bodyLimit = some 100 := rfl
  exact ⟨⟨hinner, hidle, hlimit⟩, serve_heeds_limit hinner hidle hlimit elevenStage⟩

/-- Around the usual chain for a hundred bytes, a limit of ten lets eleven through. -/
theorem Stage.serve_forgets_outer_limit :
  .maxBody 10 ∈ twoLimits
    ∧ ((elevenStage.serve (chain
        ((twoLimits ++ .decodeRequest :: innerParts).map Standard.middleware)
        (noted idle)) default).2.world.notes.map fun ctx =>
          ctx.request.map fun request => request.body.length) = [some 11]
  := by
  decide +kernel

end StreamCall
