import StreamCall.Proofs.Client.Transparency
import StreamCall.Proofs.RequestId

/-!
# Handlers that call on

A `Link` is a handler that makes a call of its own while it serves one, with the context it was
called with; `relay` is the first handler of a chain of them.  What a handler sends it sends as
any caller does (`Hop.run_send`).  Each handler notes the id that its context carries.  Whatever
becomes of the single calls, all the handlers of a chain that run see the same id: the one that
the first caller named or carried, or else a fresh one (`send_keeps_id`).
-/

namespace StreamCall

variable {ν α β : Type}

/-! ### Notes -/

/-- Whether a program leaves no notes. -/
def Program.Silent (p : Program (Ambient ν) α) : Prop :=
  p.Uses fun (op : AmbientOp ν) => ∀ note, op ≠ .note note

theorem Program.silent_done (a : α) :
  (Program.done a : Program (Ambient ν) α).Silent
  :=
  trivial

theorem Program.Silent.notes_run {p : Program (Ambient ν) α} (h : p.Silent) (w : World ν) :
  (p.run World.answer w).2.notes = w.notes
  := by
  induction p generalizing w with
  | done a => rfl
  | panic q => rfl
  | step op next ih =>
    cases op with
    | note note => exact absurd rfl (h.1 note)
    | log event => exact ih () (h.2 ()) _
    | random n => exact ih _ (h.2 _) _
    | now => exact ih _ (h.2 _) _
    | isCancelled token => exact ih _ (h.2 _) _
    | cancel token => exact ih () (h.2 ()) _
    | branch token => exact ih _ (h.2 _) _
    | pause | hang => rfl

/-- What is done silently afterwards makes no difference to the notes. -/
theorem Program.notes_run_bind
    (p : Program (Ambient ν) α) {f : α → Program (Ambient ν) β} (h : ∀ a, (f a).Silent)
    (w : World ν) :
  ((p.bind f).run World.answer w).2.notes = (p.run World.answer w).2.notes
  := by
  rw [Program.run_bind]
  generalize p.run World.answer w = ended
  obtain ⟨outcome, w'⟩ := ended
  cases outcome with
  | done a => exact (h a).notes_run w'
  | panicked q => rfl
  | waiting => rfl

/-! ### Named requests -/

/-- The request with an id in its header, unless there is one. -/
def Request.named (request : Request) (id : RequestId) : Request :=
  if request.headers.contains RequestId.header = true then request
  else { request with headers := request.headers.insert RequestId.header id.text }

/-- What the server takes for the id of a request that was given one. -/
theorem Request.idOr_named
    {request : Request} (h : request.headers.get? RequestId.header = none) {id : RequestId}
    (hid : RequestId.parse id.text = some id) (fresh : RequestId) :
  (request.named id).envelope.request.idOr fresh = id
  := by
  have hcontains : request.headers.contains RequestId.header = false := by
    rw [Headers.contains, h]
    rfl
  have hheader : (request.named id).envelope.request.headers.get? RequestId.header
      = some id.text := by
    rw [named, hcontains]
    exact (Headers.get?_insert _ _ _ _).trans (if_pos rfl)
  rw [Request.idOr_eq, hheader, Option.bind_some, hid]
  rfl

/-- A request that names an id, be it blank, keeps it. -/
theorem Request.idOr_named_of_header
    {request : Request} {value : String}
    (h : request.headers.get? RequestId.header = some value) (id fresh : RequestId) :
  (request.named id).envelope.request.idOr fresh
    = if Text.trim value = "" then fresh else ⟨Text.trim value⟩
  := by
  have hcontains : request.headers.contains RequestId.header = true := by
    rw [Headers.contains, h]
    rfl
  have hheader : (request.named id).envelope.request.headers.get? RequestId.header
      = some value := by
    rw [named, if_pos hcontains]
    exact h
  rw [Request.idOr, hheader]

namespace Client

open Delivery

theorem stamped_succ (k : Nat) (ctx : Context) (fresh : RequestId) (request : Request) :
  stamped (k + 1) ctx fresh request = request.named (ctx.requestId.getD fresh)
  := by
  rw [stamped, Request.named]
  simp

/-! ### Ways of requests -/

/-- The way of a request from a client to a function: the client gives its requests an id,
nothing is lost on the way, and the server has the usual chain around the function. -/
structure Hop (ν : Type) where
  client : Plan ν
  server : Server.Plan ν
  /-- The largest body that the server accepts. -/
  max : Nat
  network : Delivery ν
  stamps : ∃ k, client.middlewares = List.replicate (k + 1) injectRequestId
  usual : server.middlewares = Middleware.defaultChain max
  lossless : ∀ data, (network.cut data).flatten = data

namespace Hop

/-- The network with a function behind it. -/
def leadingTo (hop : Hop ν) (f : Unary ν) : Delivery ν :=
  { hop.network with handler := some (hop.server.wrap (unary f)) }

/-- Whether a request gets to the function: a connection is up, and the request is within the
limits. -/
structure Takes (hop : Hop ν) (request : Request) : Prop where
  reaches : hop.network.Reaches request.address
  body : request.body.length ≤ hop.max
  size : (Envelope.encode request.envelope).length ≤ Envelope.maxSize hop.max

/-- Sends a request with a context below the given one, for a caller that nobody cancels. -/
def send (hop : Hop ν) (f : Unary ν) (ctx : Context) (request : Request) :
    Program (Ambient ν) (Except ClientError Response) :=
  .step (.branch ctx.token) fun (child : Token) =>
    ((hop.leadingTo f).call hop.client.roundTrip (ctx.withToken child) request).bind
      fun r => .done r.1

theorem connects
    (hop : Hop ν) (f : Unary ν) {address : String} (h : hop.network.Reaches address) {k : Nat}
    (hclient : hop.client.middlewares = List.replicate (k + 1) injectRequestId) :
  (hop.leadingTo f).Connects hop.client (k + 1) hop.server hop.max f address
  :=
  ⟨hclient, h, hop.lossless, hop.usual, rfl⟩

/-- A request that gets to the function is what it is called with, and nobody else leaves
notes. -/
theorem notes_run_of_takes
    (hop : Hop ν) (f : Unary ν) (w : World ν) (ctx : Context) {request sent : Request}
    (hsent : request.named (ctx.requestId.getD (.ofRandom (w.random 16).1)) = sent)
    (h : hop.Takes sent) :
  ∃ called u, called.IsCalled hop.max sent.envelope.request ∧ u.notes = w.notes
    ∧ ((hop.leadingTo f).run w (hop.client.roundTrip ctx request)).2.notes
      = ((f called sent.envelope.request).run World.answer u).2.notes
  := by
  obtain ⟨k, hclient⟩ := hop.stamps
  rw [← stamped_succ k] at hsent
  have hreaches := h.reaches
  rw [← hsent, address_stamped] at hreaches
  obtain ⟨called, u, w', hcalled, hbefore, hafter, hrun⟩ := run_roundTrip_called f
    (hop.connects f hreaches hclient) w ctx (congrArg Request.envelope hsent) h.size h.body
  refine ⟨called, u, hcalled, hbefore, ?_⟩
  rw [← hafter]
  generalize ((f called sent.envelope.request).run World.answer u).1.caught = outcome at hrun
  cases outcome with
  | done answer =>
    obtain ⟨d', hrun⟩ := hrun
    rw [hrun]
  | panicked q => rw [hrun]
  | waiting => rw [hrun]

/-- Of a request that does not get to the function nothing is noted. -/
theorem notes_run_of_not_takes
    (hop : Hop ν) (f : Unary ν) (w : World ν) (ctx : Context) {request sent : Request}
    (hsent : request.named (ctx.requestId.getD (.ofRandom (w.random 16).1)) = sent)
    (h : ¬ hop.Takes sent) :
  ((hop.leadingTo f).run w (hop.client.roundTrip ctx request)).2.notes = w.notes
  := by
  obtain ⟨k, hclient⟩ := hop.stamps
  rw [← stamped_succ k] at hsent
  by_cases hreaches : hop.network.Reaches sent.address
  · have hlarge : Envelope.maxSize hop.max < (Envelope.encode sent.envelope).length
        ∨ hop.max < sent.envelope.body.length := by
      rw [← Nat.not_le, ← Nat.not_le, ← not_and_or]
      intro hsmall
      exact h ⟨hreaches, hsmall.2, hsmall.1⟩
    rw [← hsent, address_stamped] at hreaches
    obtain ⟨e, d', w', hnotes, hrun⟩ := run_roundTrip_refused f
      (hop.connects f hreaches hclient) w ctx (congrArg Request.envelope hsent) hlarge
    rw [hrun, hnotes]
  · have hunreached : ¬ (hop.leadingTo f).Reaches sent.address := hreaches
    obtain ⟨w', hstamped, hnotes⟩ := (hop.leadingTo f).run_chain_injectRequestId w (k + 1)
      (physical hop.client.settings.readBuffer) ctx request
    obtain ⟨e, d', hphysical⟩ := run_physical_unreached hunreached w'
      hop.client.settings.readBuffer ctx
    rw [Plan.roundTrip, hclient, hstamped, hsent, hphysical, hnotes]

/-- For a caller that has not been cancelled this is what sending a request comes to. -/
theorem run_send
    (hop : Hop ν) (f : Unary ν) (ctx : Context) {request : Request}
    (htimeless : timeLimit request = none) {w : World ν}
    (hcaller : w.tokens.isCancelled ctx.token = false) (now : Nat) :
  let child := w.tokens.child ctx.token
  let finish := Client.send (setting ctx.token) none now
    ({ w with tokens := child.2 }, hop.leadingTo f) hop.client.roundTrip ctx child.1 request
  ((hop.send f ctx request).run World.answer w).2 = finish.state.1
    ∧ ∀ result, ((hop.send f ctx request).run World.answer w).1 = .done result →
      finish.outcome = .done result
  := by
  intro child finish
  let w₁ := { w with tokens := child.2 }
  let trip := hop.client.roundTrip (ctx.withToken child.1) request
  have hfinish : finish = race (setting ctx.token) ⟨none, none⟩ now (w₁, hop.leadingTo f) trip :=
    send_eq_race (s := (w₁, hop.leadingTo f)) hcaller htimeless hop.client.roundTrip ctx child.1 now
  have hsend : (hop.send f ctx request).run World.answer w
      = (((hop.leadingTo f).call hop.client.roundTrip (ctx.withToken child.1) request).bind
        fun r => .done r.1).run World.answer w₁ := rfl
  have hstate := race_state ctx.token ⟨none, none⟩ now (hop.leadingTo f) w₁ trip
  rw [hfinish, hstate, hsend, Program.run_bind]
  cases htrip : (hop.leadingTo f).run w₁ trip with
  | mk outcome w' =>
    have hcall : ((hop.leadingTo f).call hop.client.roundTrip (ctx.withToken child.1)
        request).run World.answer w₁ = (outcome, w') := htrip
    rw [hcall]
    cases outcome with
    | done r =>
      rw [race_of_run htrip]
      exact ⟨rfl, fun result h => h⟩
    | panicked q | waiting =>
      use rfl
      rintro result ⟨⟩

/-- What sending a request leaves behind is what its round trip does. -/
theorem notes_run_send
    (hop : Hop ν) (f : Unary ν) (ctx : Context) (request : Request) (w : World ν) :
  ∃ child w', w'.notes = w.notes
    ∧ ((hop.send f ctx request).run World.answer w).2.notes
      = ((hop.leadingTo f).run w' (hop.client.roundTrip (ctx.withToken child) request)).2.notes
  := by
  let child := (w.tokens.child ctx.token).1
  let w' := { w with tokens := (w.tokens.child ctx.token).2 }
  let call := (hop.leadingTo f).call hop.client.roundTrip (ctx.withToken child) request
  exact ⟨child, w', rfl, Program.notes_run_bind call (fun r => Program.silent_done r.1) w'⟩

end Hop

/-! ### Chains of handlers -/

/-- A handler that calls on: how it makes a request from the one it serves, the way of that
request, and how it ends with the result.  It names no id in its request, and leaves no notes of
its own. -/
structure Link extends Hop (Option RequestId) where
  prepare : Context → Request → Program (Ambient (Option RequestId)) Request
  finish : Context → Request → Except ClientError Response →
    Program (Ambient (Option RequestId)) (Except HandlerError Response)
  unnamed : ∀ {ctx request w onward w'},
    (prepare ctx request).run World.answer w = (.done onward, w') →
      onward.headers.get? RequestId.header = none
  prepare_silent : ∀ ctx request, (prepare ctx request).Silent
  finish_silent : ∀ ctx request result, (finish ctx request result).Silent

/-- Notes the id in the context, and goes on. -/
def noting (f : Unary (Option RequestId)) : Unary (Option RequestId) := fun ctx request =>
  .step (.note ctx.requestId) fun (_ : Unit) => f ctx request

/-- Makes a request from the one it serves, sends it to the next function, and ends with the
result. -/
def Link.callOn (link : Link) (next : Unary (Option RequestId)) : Unary (Option RequestId) :=
  fun ctx request =>
    (link.prepare ctx request).bind fun onward =>
      (link.send next ctx onward).bind fun result => link.finish ctx request result

/-- The first handler of a chain, each of which calls the next one; the last one answers. -/
def relay (answer : Unary (Option RequestId)) : List Link → Unary (Option RequestId)
  | [] => noting answer
  | link :: rest => noting (link.callOn (relay answer rest))

/-- Whether the handlers of a chain call on, one after the other, and their requests get to the
next one; the first one is called for a request with an id, and accepts `max` bytes. -/
def GoesOn (id : RequestId) : Nat → List Link → Request → Prop
  | _, [], _ => True
  | max, link :: rest, received =>
    ∀ token w, ∃ onward w',
      (link.prepare (.called token max received id) received).run World.answer w
        = (.done onward, w')
      ∧ link.Takes (onward.named id)
      ∧ GoesOn id link.max rest (onward.named id).envelope.request

/-- Whether an id, and nothing else, was noted behind some notes: at most `n` times, and just so
many times if all went well. -/
def Tallies (id : RequestId) (n : Nat) (well : Prop) (before after : List (Option RequestId)) :
    Prop :=
  ∃ m ≤ n, after = before ++ List.replicate m (some id) ∧ (well → m = n)

theorem tallies_nothing {id : RequestId} {n : Nat} {well : Prop} (h : well → 0 = n)
    (notes : List (Option RequestId)) :
  Tallies id n well notes notes
  := by
  use 0, Nat.zero_le n
  constructor
  · rw [List.replicate_zero, List.append_nil]
  · exact h

theorem Tallies.imp
    {id : RequestId} {n : Nat} {well well' : Prop} {before after : List (Option RequestId)}
    (h : Tallies id n well before after) (himp : well' → well) :
  Tallies id n well' before after
  := by
  obtain ⟨m, hm, hafter, hwell⟩ := h
  exact ⟨m, hm, hafter, hwell ∘ himp⟩

theorem Tallies.cons
    {id : RequestId} {n : Nat} {well : Prop} {before after : List (Option RequestId)}
    (h : Tallies id n well (before ++ [some id]) after) :
  Tallies id (n + 1) well before after
  := by
  obtain ⟨m, hm, rfl, hwell⟩ := h
  use m + 1, Nat.succ_le_succ hm
  constructor
  · rw [List.append_assoc, List.replicate_succ]
    rfl
  · intro h
    rw [hwell h]

/-- A request that is sent with an id in the context gets to the next function with that id, if
it names none itself. -/
theorem Hop.tallies_send
    {id : RequestId} (hid : RequestId.parse id.text = some id) {hop : Hop (Option RequestId)}
    {next : Unary (Option RequestId)} {n : Nat} {well : Request → Prop}
    (hnext : ∀ token received w, Tallies id n (well received) w.notes
      ((next (.called token hop.max received id) received).run World.answer w).2.notes)
    {ctx : Context} (hctx : ctx.requestId = some id) {request : Request}
    (hunnamed : request.headers.get? RequestId.header = none) (w : World (Option RequestId)) :
  Tallies id n (hop.Takes (request.named id) ∧ well (request.named id).envelope.request) w.notes
    ((hop.send next ctx request).run World.answer w).2.notes
  := by
  obtain ⟨child, w₁, hnotes, hsend⟩ := hop.notes_run_send next ctx request w
  have hsent : request.named ((ctx.withToken child).requestId.getD (.ofRandom (w₁.random 16).1))
      = request.named id := by
    rw [Context.withToken, hctx]
    rfl
  rw [hsend, ← hnotes]
  by_cases htakes : hop.Takes (request.named id)
  · obtain ⟨called, u, ⟨token, bytes, -, rfl⟩, hbefore, hafter⟩ :=
      hop.notes_run_of_takes next w₁ _ hsent htakes
    rw [Request.idOr_named hunnamed hid] at hafter
    rw [hafter, ← hbefore]
    apply (hnext token _ u).imp
    exact And.right
  · rw [hop.notes_run_of_not_takes next w₁ _ hsent htakes]
    exact tallies_nothing (fun h => absurd h.1 htakes) w₁.notes

/-- A handler that calls on notes nothing itself, and what the next one notes if that one is
called. -/
theorem Link.tallies_callOn
    {id : RequestId} (hid : RequestId.parse id.text = some id) {link : Link}
    {next : Unary (Option RequestId)} {n : Nat} {well : Request → Prop}
    (hnext : ∀ token received w, Tallies id n (well received) w.notes
      ((next (.called token link.max received id) received).run World.answer w).2.notes)
    (token : Token) (max : Nat) (received : Request) (w : World (Option RequestId)) :
  Tallies id n
    (∀ token w, ∃ onward w',
      (link.prepare (.called token max received id) received).run World.answer w
        = (.done onward, w')
      ∧ link.Takes (onward.named id) ∧ well (onward.named id).envelope.request)
    w.notes ((link.callOn next (.called token max received id) received).run World.answer w).2.notes
  := by
  have hsilent := (link.prepare_silent (.called token max received id) received).notes_run w
  rw [Link.callOn, Program.run_bind]
  cases hprepare : (link.prepare (.called token max received id) received).run World.answer w with
  | mk outcome w₁ =>
    have hgone : ∀ {well : Request → Prop}, (∀ token w, ∃ onward w',
          (link.prepare (.called token max received id) received).run World.answer w
            = (.done onward, w')
          ∧ well onward) →
        ∃ onward, outcome = .done onward ∧ well onward := by
      intro well h
      obtain ⟨onward, w', hrun, hwell⟩ := h token w
      rw [hprepare] at hrun
      exact ⟨onward, congrArg Prod.fst hrun, hwell⟩
    rw [hprepare] at hsilent
    rw [← hsilent]
    cases outcome with
    | panicked q =>
      apply tallies_nothing
      intro h
      obtain ⟨onward, ⟨⟩, -⟩ := hgone h
    | waiting =>
      apply tallies_nothing
      intro h
      obtain ⟨onward, ⟨⟩, -⟩ := hgone h
    | done onward =>
      dsimp only
      rw [Program.notes_run_bind _ (link.finish_silent _ received)]
      apply (Hop.tallies_send hid hnext rfl (link.unnamed hprepare) w₁).imp
      intro h
      obtain ⟨_, ⟨⟩, hwell⟩ := hgone h
      exact hwell

/-- The handlers of a chain see the id that the first one is called with. -/
theorem tallies_relay
    {answer : Unary (Option RequestId)} (hanswer : ∀ ctx request, (answer ctx request).Silent)
    {id : RequestId} (hid : RequestId.parse id.text = some id) (links : List Link) (token : Token)
    (max : Nat) (received : Request) (w : World (Option RequestId)) :
  Tallies id (links.length + 1) (GoesOn id max links received) w.notes
    ((relay answer links (.called token max received id) received).run World.answer w).2.notes
  := by
  induction links generalizing token max received w with
  | nil =>
    apply Tallies.cons
    have hnotes : ((relay answer [] (.called token max received id) received).run
        World.answer w).2.notes = w.notes ++ [some id] :=
      (hanswer _ received).notes_run { w with notes := w.notes ++ [some id] }
    rw [hnotes]
    exact tallies_nothing (fun _ => rfl) _
  | cons link rest ih =>
    apply Tallies.cons
    exact Link.tallies_callOn hid (fun token received w => ih token link.max received w) token max
      received { w with notes := w.notes ++ [some id] }

/-! ### The id of a call -/

/-- Whether an id is made of sixteen random bytes. -/
def IsFresh (id : RequestId) : Prop :=
  ∃ bytes, bytes.length = 16 ∧ id = .ofRandom bytes

/-- Whether a call goes by an id: the one that its request names, without the blanks around it,
else the one in the caller's context.  If there is neither, or if the request names a blank one,
the id is a fresh one. -/
def GoesBy (ctx : Context) (request : Request) (id : RequestId) : Prop :=
  match request.headers.get? RequestId.header with
  | some value =>
    if value.toList.all Text.isBlank = true then IsFresh id else id = ⟨Text.trim value⟩
  | none =>
    match ctx.requestId with
    | some given => id = given
    | none => IsFresh id

/-- What the first server takes for the id is the one that the call goes by. -/
theorem goesBy_idOr
    {ctx : Context} (hctx : ∀ id, ctx.requestId = some id → id.IsObtained)
    {fresh fresh' : RequestId} (hfresh : IsFresh fresh) (hfresh' : IsFresh fresh')
    (request : Request) {id : RequestId}
    (hid : (request.named (ctx.requestId.getD fresh)).envelope.request.idOr fresh' = id) :
  GoesBy ctx request id ∧ id.IsObtained
    ∧ request.named (ctx.requestId.getD fresh) = request.named id
  := by
  have hobtained : ∀ {id}, IsFresh id → id.IsObtained := by
    rintro _ ⟨bytes, -, rfl⟩
    exact .random bytes
  rw [GoesBy]
  cases hheader : request.headers.get? RequestId.header with
  | some value =>
    have hnamed : ∀ id, request.named id = request :=
      fun id => if_pos (by rw [Headers.contains, hheader]; rfl)
    rw [Request.idOr_named_of_header hheader] at hid
    have hempty := Text.trim_eq_empty_iff value
    dsimp only
    rw [hnamed, hnamed, ← hid]
    by_cases hblank : Text.trim value = ""
    · rw [if_pos hblank, if_pos (hempty.mp hblank)]
      exact ⟨hfresh', hobtained hfresh', rfl⟩
    · rw [if_neg hblank, if_neg (mt hempty.mpr hblank)]
      exact ⟨rfl, .parsed (RequestId.parse_of_ne_empty hblank), rfl⟩
  | none =>
    dsimp only
    cases hgiven : ctx.requestId with
    | some given =>
      rw [hgiven, Option.getD_some] at hid
      rw [Request.idOr_named hheader (hctx given hgiven).parse_text] at hid
      rw [← hid]
      exact ⟨rfl, hctx given hgiven, rfl⟩
    | none =>
      rw [hgiven, Option.getD_none] at hid
      rw [Request.idOr_named hheader (hobtained hfresh).parse_text] at hid
      rw [← hid]
      exact ⟨hfresh, hobtained hfresh, rfl⟩

/-- The handlers behind the first call see the id that it goes by. -/
theorem tallies_roundTrip
    {answer : Unary (Option RequestId)} (hanswer : ∀ ctx request, (answer ctx request).Silent)
    (hop : Hop (Option RequestId)) (links : List Link) (request : Request) {ctx : Context}
    (hctx : ∀ id, ctx.requestId = some id → id.IsObtained) (w : World (Option RequestId)) :
  ∃ id, GoesBy ctx request id ∧ id.IsObtained
    ∧ Tallies id (links.length + 1)
      (hop.Takes (request.named id)
        ∧ GoesOn id hop.max links (request.named id).envelope.request)
      w.notes
      ((hop.leadingTo (relay answer links)).run w (hop.client.roundTrip ctx request)).2.notes
  := by
  have hfresh : IsFresh (.ofRandom (w.random 16).1) := ⟨_, by simp [World.random], rfl⟩
  generalize hsent : request.named (ctx.requestId.getD (.ofRandom (w.random 16).1)) = sent
  by_cases htakes : hop.Takes sent
  · obtain ⟨called, u, ⟨token, bytes, hbytes, rfl⟩, hbefore, hafter⟩ :=
      hop.notes_run_of_takes (relay answer links) w ctx hsent htakes
    generalize hid : sent.envelope.request.idOr (.ofRandom bytes) = id at hafter
    rw [← hsent] at hid
    obtain ⟨hgoes, hobtained, hnamed⟩ := goesBy_idOr hctx hfresh ⟨bytes, hbytes, rfl⟩ request hid
    use id, hgoes, hobtained
    rw [hafter, ← hbefore, ← hnamed, hsent]
    apply (tallies_relay hanswer hobtained.parse_text links token hop.max _ u).imp
    exact And.right
  · -- No server has made an id of its own, so any that it could have made will do.
    obtain ⟨hgoes, hobtained, hnamed⟩ := goesBy_idOr hctx hfresh hfresh request rfl
    refine ⟨_, hgoes, hobtained, ?_⟩
    rw [hop.notes_run_of_not_takes (relay answer links) w ctx hsent htakes, ← hnamed, hsent]
    exact tallies_nothing (fun h => absurd h.1 htakes) w.notes

/-- All the handlers of a chain that run see the id that the first call goes by, whatever becomes
of the single calls; and if every request gets to the next handler, all of them run. -/
theorem send_keeps_id
    {answer : Unary (Option RequestId)} (hanswer : ∀ ctx request, (answer ctx request).Silent)
    (hop : Hop (Option RequestId)) (links : List Link) (request : Request) {ctx : Context}
    (hctx : ∀ id, ctx.requestId = some id → id.IsObtained) {caller : Token}
    {w : World (Option RequestId)} (hcaller : w.tokens.isCancelled caller = false) (child : Token)
    (now : Nat) :
  let finish := send (Delivery.setting caller) none now (w, hop.leadingTo (relay answer links))
    hop.client.roundTrip ctx child request
  ∃ id m, GoesBy ctx request id ∧ id.text ≠ "" ∧ m ≤ links.length + 1
    ∧ finish.state.1.notes = w.notes ++ List.replicate m (some id)
    ∧ (hop.Takes (request.named id) ∧ GoesOn id hop.max links (request.named id).envelope.request →
      m = links.length + 1)
  := by
  intro finish
  have hcancelled : (setting caller).isCancelled (w, hop.leadingTo (relay answer links)) = false :=
    hcaller
  have hfinish : finish.state.1
      = ((hop.leadingTo (relay answer links)).run w
        (hop.client.roundTrip (ctx.withToken child) request)).2 := by
    dsimp only [finish]
    rw [send, hcancelled]
    exact race_state caller _ now _ w _
  have hctx' : ∀ id, (ctx.withToken child).requestId = some id → id.IsObtained := hctx
  obtain ⟨id, hgoes, hobtained, m, hm, hnotes, hall⟩ :=
    tallies_roundTrip hanswer hop links request hctx' w
  refine ⟨id, m, hgoes, ?_, hm, ?_, hall⟩
  · exact (RequestId.text_of_parse hobtained.parse_text).2
  · rw [hfinish, hnotes]

/-! ### Three servers -/

/-- A handler that sends on the body alone, and answers with nothing. -/
def forwarding : Link where
  client := stamping
  server := bodiless
  max := 0
  network := { Delivery.fresh none ⟨[0]⟩ with
    pool := { Pool.empty with kept := [("a", 0)], dials := 1 } }
  stamps := ⟨0, rfl⟩
  usual := rfl
  lossless := fun data => List.append_nil data
  prepare := fun _ request => .done ⟨"a", none, request.body, .empty⟩
  finish := fun _ _ _ => .done (.ok ⟨[], .empty⟩)
  unnamed := by
    rintro ctx request w onward w' ⟨⟩
    rfl
  prepare_silent := fun _ _ => trivial
  finish_silent := fun _ _ _ => trivial

/-- A request that names an id between blanks. -/
def sevenRequest : Request := ⟨"a", none, [], .ofList [(RequestId.header, " 7 ")]⟩

/-- A caller with another id. -/
def nineContext : Context := { Context.ofToken ⟨[1]⟩ with requestId := some ⟨"9"⟩ }

/-- The world that the request is sent in. -/
def quietWorld : World (Option RequestId) := .fresh fun _ => 0

theorem forwarding_takes
    {request : Request} (haddress : request.address = "a") (hbody : request.body = [])
    (hsize : Envelope.entriesLength request.headers.entries ≤ 1000) :
  forwarding.Takes request
  := by
  constructor
  · rw [haddress]
    exact .inl rfl
  · rw [hbody]
    exact Nat.le_refl 0
  · have hlimit : 1024 ≤ Envelope.maxSize forwarding.max := by decide
    rw [Envelope.length_encode, Request.envelope, hbody]
    dsimp only [List.length_nil]
    omega

theorem send_keeps_id_threeServers :
  ((∀ ctx request, ((answerNothing : Unary (Option RequestId)) ctx request).Silent)
    ∧ (∀ id, nineContext.requestId = some id → id.IsObtained)
    ∧ quietWorld.tokens.isCancelled nineContext.token = false)
  ∧ (send (Delivery.setting nineContext.token) none 0
      (quietWorld, forwarding.leadingTo (relay answerNothing [forwarding, forwarding]))
      forwarding.client.roundTrip nineContext ⟨[2, 1]⟩ sevenRequest).state.1.notes
    = [some ⟨"7"⟩, some ⟨"7"⟩, some ⟨"7"⟩]
  := by
  have hanswer : ∀ ctx request, ((answerNothing : Unary (Option RequestId)) ctx request).Silent :=
    fun _ _ => trivial
  have hctx : ∀ id, nineContext.requestId = some id → id.IsObtained := by
    rintro _ ⟨⟩
    exact .parsed (by decide : RequestId.parse "9" = some ⟨"9"⟩)
  have hcaller : quietWorld.tokens.isCancelled nineContext.token = false := rfl
  refine ⟨⟨hanswer, hctx, hcaller⟩, ?_⟩
  obtain ⟨id, m, hgoes, -, -, hnotes, hall⟩ := send_keeps_id hanswer forwarding.toHop
    [forwarding, forwarding] sevenRequest hctx hcaller ⟨[2, 1]⟩ 0
  have hid : id = ⟨"7"⟩ := by
    have hheader : sevenRequest.headers.get? RequestId.header = some " 7 " := by decide
    have htrim : Text.trim " 7 " = "7" := by decide
    rw [GoesBy, hheader] at hgoes
    dsimp only at hgoes
    rw [if_neg (by decide), htrim] at hgoes
    exact hgoes
  subst hid
  have hm : m = 3 := by
    apply hall
    constructor
    · exact forwarding_takes rfl rfl (by decide)
    · intro token w
      refine ⟨_, w, rfl, forwarding_takes rfl rfl (by decide), ?_⟩
      intro token w
      exact ⟨_, w, rfl, forwarding_takes rfl rfl (by decide), trivial⟩
  rw [hnotes, hm]
  rfl

end Client

end StreamCall
