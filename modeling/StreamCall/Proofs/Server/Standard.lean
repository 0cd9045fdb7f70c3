import Mathlib.Tactic.Use
import StreamCall.Proofs.Server.Layered

/-!
# The standard middlewares

`Standard` lists the middlewares that come with a server.  Put around a handler, each of them
either ends with an error of its own and does not call the handler (`Standard.Refuses`), or calls
it once and ends as it does, but for panics that are caught and streams that are reset
(`Standard.Calls`).  This is so for every one of them (`Standard.refuses_or_calls`), and so it is
for every chain of them (`run_chain`).
-/

namespace StreamCall

open Middleware

variable {ν α : Type}

/-! ### Programs that leave no trace -/

/-- Whether an operation is answered at once, leaves no note and does not use the side that is
written. -/
def Unobtrusive : (Service ν).Op → Prop
  | .inl (.note _) => False
  | .inl .pause => False
  | .inl .hang => False
  | .inl _ => True
  | .inr op => op.Quiet

namespace Layered

/-- Whether two stages show the same notes and the same output. -/
structure Alike (s t : Layered ν) : Prop where
  notes : t.stage.world.notes = s.stage.world.notes
  output : t.stage.stream.output = s.stage.stream.output

theorem Alike.refl (s : Layered ν) : s.Alike s := ⟨rfl, rfl⟩

theorem Alike.trans {s t u : Layered ν} (h : s.Alike t) (h' : t.Alike u) :
  s.Alike u
  :=
  ⟨h'.notes.trans h.notes, h'.output.trans h.output⟩

theorem answer_of_unobtrusive
    {op : AmbientOp ν} (h : Unobtrusive (.inl op)) (w : World ν) :
  ∃ answer w', w.answer op = some (answer, w') ∧ w'.notes = w.notes
  := by
  cases op with
  | note | pause | hang => cases h
  | log | random | now | isCancelled | cancel | branch => exact ⟨_, _, rfl, rfl⟩

/-- A program of such operations that never panics ends and leaves no trace. -/
theorem run_unobtrusive {p : Serving ν α} (h : p.Safe Unobtrusive) (n : Nat) (s : Layered ν) :
  ∃ a t, s.run n p = (.done a, t) ∧ s.Alike t
  := by
  induction p generalizing s with
  | done a => exact ⟨a, s, rfl, .refl s⟩
  | panic q => cases h
  | step op next ih =>
    cases op with
    | inl op =>
      obtain ⟨answer, world, hanswer, hnotes⟩ := answer_of_unobtrusive h.1 s.stage.world
      obtain ⟨a, t, hrun, halike⟩ := ih answer (h.2 answer)
        { s with stage := { s.stage with world } }
      use a, t
      constructor
      · exact (run_inl hanswer next).trans hrun
      · exact ⟨halike.notes.trans hnotes, halike.output⟩
    | inr op =>
      obtain ⟨answer, layers, stream, hop, houtput⟩ :=
        s.stage.stream.run_onLayers_output n s.layers op
      obtain ⟨a, t, hrun, halike⟩ := ih answer (h.2 answer)
        ⟨layers, { s.stage with stream }⟩
      rw [StreamOp.act_of_quiet h.1] at houtput
      use a, t
      constructor
      · exact (run_inr hop next).trans hrun
      · exact ⟨halike.notes, halike.output.trans houtput⟩

end Layered

section

variable {A : (Service ν).Op → Prop}

theorem streamId_safe (hid : A (.inr .id)) :
  (Serving.streamId (ν := ν)).Safe A
  :=
  ⟨hid, fun _ => trivial⟩

theorem log_safe (hlog : ∀ event, A (.inl (.log event))) (event : Event) :
  (Serving.log event).Safe A
  :=
  ⟨hlog event, fun _ => trivial⟩

theorem readEnvelope_safe (hdrain : A (.inr (.drain none))) :
  (Serving.onStream (Stream.readEnvelope .request)).Safe A
  := by
  apply Program.Safe.inr
  rw [readEnvelope_request]
  apply Program.Safe.bind
  · exact ⟨hdrain, fun _ => trivial⟩
  · rintro ⟨data, _ | _ | e⟩
    · dsimp only
      cases Envelope.decode .request data <;> trivial
    · dsimp only
      cases Envelope.decode .request data <;> trivial
    · trivial

namespace Middleware

theorem requestIdOf_safe (hrandom : ∀ k, A (.inl (.random k))) (request : Request) :
  (Serving.onSurroundings (requestIdOf request)).Safe A
  := by
  rw [requestIdOf]
  split
  · trivial
  · exact ⟨hrandom _, fun _ => trivial⟩

theorem logBody_safe
    (hlog : ∀ event, A (.inl (.log event))) (on : Bool) (name : String) (data : Bytes)
    (stream : Nat) :
  (logBody on name data stream).Safe A
  := by
  cases on
  · trivial
  · exact log_safe hlog _

end Middleware

end

namespace Middleware

/-! ### The parts -/

/-- A middleware that comes with a server. -/
inductive Standard where
  | errorHandler
  | maxBody (limit : Nat)
  | decodeRequest
  | attachRequestId
  | recovery
  | logTraffic (config : LogConfig)
deriving DecidableEq

namespace Standard

/-- What a part does to a handler. -/
def middleware : Standard → Middleware ν
  | .errorHandler => Middleware.errorHandler
  | .maxBody limit => Middleware.maxBody limit
  | .decodeRequest => Middleware.decodeRequest
  | .attachRequestId => Middleware.attachRequestId
  | .recovery => Middleware.recovery
  | .logTraffic config => Middleware.logTraffic config

/-- The usual chain consists of such parts. -/
theorem defaultChain_eq (limit : Nat) :
  defaultChain (ν := ν) limit
    = [errorHandler, maxBody limit, decodeRequest, attachRequestId, recovery].map middleware
  :=
  rfl

/-- The errors that a part itself ends with. -/
def Raises : Standard → HandlerError → Prop
  | .decodeRequest, e => ∃ fault : EnvelopeError, e = .classify (.envelope fault)
  | .attachRequestId, e => e = missingRequest
  | _, _ => False

/-- What a part makes of the end of the handler. -/
def turn : Standard → Outcome (Except HandlerError Unit) → Outcome (Except HandlerError Unit)
  | .recovery, .panicked q => .done (.error (.ofPanic q))
  | _, outcome => outcome

/-- What a part does to the output, once the handler has ended. -/
def sign : Standard → Outcome (Except HandlerError Unit) → WriteSide × Bytes → WriteSide × Bytes
  | .errorHandler, .done (.error e), output => cancelOutput e.wireCode output
  | _, _, output => output

/-- Whether a part ends with an error of its own, whatever it is put around. -/
def Refuses (part : Standard) (ctx : Context) (n : Nat) (s : Layered ν) (e : HandlerError) : Prop :=
  part.Raises e
    ∧ ∃ t, s.Alike t ∧ ∀ next, s.run n (part.middleware next ctx) = (.done (.error e), t)

/-- Whether a part calls the handler that it is put around, with a context and on a stage of its
own, and ends as the handler does. -/
def Calls (part : Standard) (ctx : Context) (n : Nat) (s : Layered ν)
    (ctx' : Context) (n' : Nat) (s' : Layered ν) : Prop :=
  s.Alike s' ∧ ∀ (next : Handler ν) outcome t', s'.run n' (next ctx') = (outcome, t') →
    ∃ t, s.run n (part.middleware next ctx) = (part.turn outcome, t)
      ∧ t.stage.world.notes = t'.stage.world.notes
      ∧ t.stage.stream.output = part.sign outcome t'.stage.stream.output

end Standard

end Middleware

/-- A failure that is reported resets the side that is written, if it is open. -/
theorem Layered.run_report_error (n : Nat) (s : Layered ν) (e : HandlerError) (stream : Nat) :
  ∃ t, s.run n (report stream (.error e)) = (.done (.error e), t)
    ∧ t.stage.world.notes = s.stage.world.notes
    ∧ t.stage.stream.output = cancelOutput e.wireCode s.stage.stream.output
  := by
  obtain ⟨layers, ⟨world, stream'⟩⟩ := s
  let logged : World ν := { world with events := world.events ++ [failureEvent e stream] }
  obtain ⟨_, layers', t, hcancel, houtput⟩ :=
    stream'.run_onLayers_output n layers (.cancelWrite e.wireCode)
  have hlogged : world.answer (.log (failureEvent e stream)) = some ((), logged) := rfl
  use ⟨layers', logged, t⟩
  refine ⟨?_, rfl, houtput⟩
  apply (run_inl hlogged _).trans
  exact run_inr (s := ⟨layers, logged, stream'⟩) hcancel _

namespace Middleware.Standard

open Layered

variable (ctx : Context) (n : Nat) (s : Layered ν)

theorem errorHandler_calls :
  ∃ s', errorHandler.Calls ctx n s ctx n s'
  := by
  obtain ⟨stream, s', hid, halike⟩ := run_unobtrusive (streamId_safe trivial) n s
  use s', halike
  intro next outcome t' hrun
  have hbegin : s.run n (Middleware.errorHandler next ctx)
      = s'.run n ((next ctx).bind (report stream)) :=
    run_bind hid _
  cases outcome with
  | done result =>
    cases result with
    | ok u =>
      use t'
      exact ⟨hbegin.trans (run_bind hrun _), rfl, rfl⟩
    | error e =>
      obtain ⟨t, hreport, hnotes, houtput⟩ := t'.run_report_error n e stream
      use t
      exact ⟨hbegin.trans ((run_bind hrun _).trans hreport), hnotes, houtput⟩
  | panicked q =>
    use t'
    exact ⟨hbegin.trans (run_bind_panicked hrun _), rfl, rfl⟩
  | waiting =>
    use t'
    exact ⟨hbegin.trans (run_bind_waiting hrun _), rfl, rfl⟩

theorem maxBody_calls (limit : Nat) :
  (maxBody limit).Calls ctx n s (ctx.withBodyLimit limit) (n + 1)
    ⟨.limit (Envelope.maxSize limit) :: s.layers, s.stage⟩
  := by
  use ⟨rfl, rfl⟩
  intro next outcome t' hrun
  obtain ⟨outcome', top, below, t, hrun', hunder⟩ := run_withLayer n
    (.limit (Envelope.maxSize limit)) s.layers s.stage (next (ctx.withBodyLimit limit))
  rw [hrun] at hrun'
  cases hrun'
  use ⟨below, t⟩
  refine ⟨?_, rfl, rfl⟩
  apply (run_map hunder Prod.fst).trans
  cases outcome <;> rfl

/-- A request that cannot be read or decoded, or whose body is too long, is refused. -/
theorem decodeRequest_refuses_or_calls :
  (∃ e, decodeRequest.Refuses ctx n s e)
    ∨ ∃ ctx' s', decodeRequest.Calls ctx n s ctx' n s'
  := by
  obtain ⟨result, s', hread, halike⟩ := run_unobtrusive (readEnvelope_safe trivial) n s
  cases result with
  | error e =>
    apply Or.inl
    use .classify (.envelope e), ⟨e, rfl⟩, s', halike
    exact fun next => run_bind hread _
  | ok envelope =>
    cases hlimit : ctx.bodyLimit.filter (· < envelope.request.body.length) with
    | some limit =>
      apply Or.inl
      use .classify (.envelope (.bodyTooLarge envelope.request.body.length limit)), ⟨_, rfl⟩,
        s', halike
      intro next
      apply (run_bind hread _).trans
      dsimp only
      rw [hlimit]
      rfl
    | none =>
      apply Or.inr
      obtain ⟨stream, s₁, hid, halike₁⟩ := run_unobtrusive (streamId_safe trivial) n s'
      obtain ⟨_, s₂, hlog, halike₂⟩ := run_unobtrusive
        (log_safe (fun _ => trivial) (decodedEvent envelope.request stream)) n s₁
      use ctx.withRequest envelope.request, s₂, (halike.trans halike₁).trans halike₂
      intro next outcome t' hrun
      use t'
      refine ⟨?_, rfl, rfl⟩
      apply (run_bind hread _).trans
      dsimp only
      rw [hlimit]
      apply (run_bind hid _).trans
      exact (run_bind hlog _).trans hrun

/-- A request that has been attached is given an id. -/
theorem attachRequestId_calls {request : Request} (hrequest : ctx.request = some request) :
  ∃ id s', attachRequestId.Calls ctx n s (ctx.withRequestId id) n s'
  := by
  obtain ⟨id, s', hid, halike⟩ :=
    run_unobtrusive (requestIdOf_safe (fun _ => trivial) request) n s
  use id, s', halike
  intro next outcome t' hrun
  obtain ⟨outcome', t, events, hrun', hspan⟩ := run_withSpan n id s' s'.stage.world.events
    (next (ctx.withRequestId id))
  rw [hrun] at hrun'
  cases hrun'
  use t'.withEvents events
  refine ⟨?_, rfl, rfl⟩
  have hbegin : Middleware.attachRequestId next ctx
      = (Serving.onSurroundings (requestIdOf request)).bind fun id =>
        Serving.withSpan id (next (ctx.withRequestId id)) := by
    simp only [Middleware.attachRequestId, hrequest]
  apply (congrArg (s.run n) hbegin).trans
  exact (run_bind hid _).trans hspan

theorem attachRequestId_refuses_or_calls :
  (∃ e, attachRequestId.Refuses ctx n s e)
    ∨ ∃ ctx' s', attachRequestId.Calls ctx n s ctx' n s'
  := by
  cases hrequest : ctx.request with
  | none =>
    apply Or.inl
    use missingRequest
    constructor
    · rfl
    · use s, .refl s
      intro next
      have hfail : Middleware.attachRequestId next ctx = Serving.fail missingRequest := by
        simp only [Middleware.attachRequestId, hrequest]
      exact congrArg (s.run n) hfail
  | some request =>
    obtain ⟨id, s', hcalls⟩ := attachRequestId_calls ctx n s hrequest
    exact .inr ⟨_, s', hcalls⟩

theorem recovery_calls :
  recovery.Calls ctx n s ctx n s
  := by
  use .refl s
  intro next outcome t' hrun
  use t'
  refine ⟨?_, rfl, rfl⟩
  have hnext : (next ctx).run (answer n) s = (outcome, t') := hrun
  have hrecover := Program.run_recover (answer n) (next ctx)
    (fun payload => Serving.fail (.ofPanic payload)) s
  rw [hnext] at hrecover
  apply hrecover.trans
  cases outcome <;> rfl

theorem logTraffic_calls (config : LogConfig) :
  (logTraffic config).Calls ctx n s ctx (n + 1) ⟨.fresh :: s.layers, s.stage⟩
  := by
  use ⟨rfl, rfl⟩
  intro next outcome t' hrun
  obtain ⟨outcome', top, below, t, hrun', hunder⟩ := run_withLayer n .fresh s.layers s.stage
    (next ctx)
  rw [hrun] at hrun'
  cases hrun'
  cases outcome with
  | done result =>
    cases result with
    | error e => exact ⟨⟨below, t⟩, run_bind hunder _, rfl, rfl⟩
    | ok u =>
      cases top with
      | limited limit remaining => exact ⟨⟨below, t⟩, run_bind hunder _, rfl, rfl⟩
      | tee read written =>
        obtain ⟨stream, s₁, hid, halike₁⟩ :=
          run_unobtrusive (streamId_safe trivial) n ⟨below, t⟩
        obtain ⟨_, s₂, hrequest, halike₂⟩ := run_unobtrusive
          (logBody_safe (fun _ => trivial) config.request "request" read stream) n s₁
        obtain ⟨_, s₃, hresponse, halike₃⟩ := run_unobtrusive
          (logBody_safe (fun _ => trivial) config.response "response" written stream) n s₂
        have halike := (halike₁.trans halike₂).trans halike₃
        use s₃
        refine ⟨?_, halike.notes, halike.output⟩
        apply (run_bind hunder _).trans
        apply (run_bind hid _).trans
        apply (run_bind hrequest _).trans
        exact run_bind hresponse _
  | panicked q => exact ⟨⟨below, t⟩, run_bind_panicked hunder _, rfl, rfl⟩
  | waiting => exact ⟨⟨below, t⟩, run_bind_waiting hunder _, rfl, rfl⟩

/-- Each part either ends with an error of its own, or calls the handler once and ends as it
does. -/
theorem refuses_or_calls (part : Standard) (ctx : Context) (n : Nat) (s : Layered ν) :
  (∃ e, part.Refuses ctx n s e) ∨ ∃ ctx' n' s', part.Calls ctx n s ctx' n' s'
  := by
  cases part with
  | errorHandler =>
    obtain ⟨s', hcalls⟩ := errorHandler_calls ctx n s
    exact .inr ⟨ctx, n, s', hcalls⟩
  | maxBody limit => exact .inr ⟨_, _, _, maxBody_calls ctx n s limit⟩
  | decodeRequest =>
    obtain hrefuses | ⟨ctx', s', hcalls⟩ := decodeRequest_refuses_or_calls ctx n s
    · exact .inl hrefuses
    · exact .inr ⟨ctx', n, s', hcalls⟩
  | attachRequestId =>
    obtain hrefuses | ⟨ctx', s', hcalls⟩ := attachRequestId_refuses_or_calls ctx n s
    · exact .inl hrefuses
    · exact .inr ⟨ctx', n, s', hcalls⟩
  | recovery => exact .inr ⟨_, _, _, recovery_calls ctx n s⟩
  | logTraffic config => exact .inr ⟨_, _, _, logTraffic_calls ctx n s config⟩

/-- A part that does not decode a request calls the handler if the context has one. -/
theorem calls_of_requested
    {part : Standard} (hpart : part ≠ decodeRequest) {ctx : Context} {request : Request}
    (hrequest : ctx.request = some request) (n : Nat) (s : Layered ν) :
  ∃ ctx' n' s', ctx'.request = some request ∧ part.Calls ctx n s ctx' n' s'
  := by
  cases part with
  | errorHandler =>
    obtain ⟨s', hcalls⟩ := errorHandler_calls ctx n s
    exact ⟨ctx, n, s', hrequest, hcalls⟩
  | maxBody limit => exact ⟨ctx.withBodyLimit limit, _, _, hrequest, maxBody_calls ctx n s limit⟩
  | decodeRequest => exact absurd rfl hpart
  | attachRequestId =>
    obtain ⟨id, s', hcalls⟩ := attachRequestId_calls ctx n s hrequest
    exact ⟨ctx.withRequestId id, n, s', hrequest, hcalls⟩
  | recovery => exact ⟨ctx, _, _, hrequest, recovery_calls ctx n s⟩
  | logTraffic config => exact ⟨ctx, _, _, hrequest, logTraffic_calls ctx n s config⟩

/-! ### Chains -/

/-- What the parts of a chain make of the end of the handler. -/
def turnAll (parts : List Standard) (outcome : Outcome (Except HandlerError Unit)) :
    Outcome (Except HandlerError Unit) :=
  parts.foldr turn outcome

theorem turn_done (part : Standard) (result : Except HandlerError Unit) :
  part.turn (.done result) = .done result
  := by
  cases part <;> rfl

theorem turnAll_done (parts : List Standard) (result : Except HandlerError Unit) :
  turnAll parts (.done result) = .done result
  := by
  induction parts with
  | nil => rfl
  | cons part parts ih =>
    rw [turnAll, List.foldr_cons, ← turnAll, ih, turn_done]

theorem turnAll_panicked_cases (parts : List Standard) (q : Payload) :
  turnAll parts (.panicked q) = .panicked q
    ∨ turnAll parts (.panicked q) = .done (.error (.ofPanic q))
  := by
  induction parts with
  | nil => exact .inl rfl
  | cons part parts ih =>
    rw [turnAll, List.foldr_cons, ← turnAll]
    obtain h | h := ih
    · rw [h]
      cases part with
      | recovery => exact .inr rfl
      | _ => exact .inl rfl
    · rw [h, turn_done]
      exact .inr rfl

/-- Whether an output is another, but that it may have been reset with the code of the error. -/
def Signed (outcome : Outcome (Except HandlerError Unit)) (output output' : WriteSide × Bytes) :
    Prop :=
  output' = output
    ∨ ∃ e : HandlerError, outcome = .done (.error e) ∧ output' = cancelOutput e.wireCode output

theorem Signed.sign
    {outcome : Outcome (Except HandlerError Unit)} {output output' : WriteSide × Bytes}
    (h : Signed outcome output output') (part : Standard) :
  Signed (part.turn outcome) output (part.sign outcome output')
  := by
  obtain rfl | ⟨e, rfl, rfl⟩ := h
  · cases part with
    | errorHandler =>
      obtain (e | _) | _ | _ := outcome
      · exact .inr ⟨e, rfl, rfl⟩
      · exact .inl rfl
      · exact .inl rfl
      · exact .inl rfl
    | _ => exact .inl rfl
  · cases part with
    | errorHandler => exact .inr ⟨e, rfl, cancelOutput_cancelOutput _ _ _⟩
    | _ => exact .inr ⟨e, rfl, rfl⟩

/-- Whether one part of a chain ends with an error of its own, on a stage like another. -/
def SomeRefuses (parts : List Standard) (s : Layered ν) (e : HandlerError) : Prop :=
  ∃ outer part inner, parts = outer ++ part :: inner
    ∧ ∃ (ctx : Context) (n : Nat) (s' : Layered ν), s.Alike s' ∧ part.Refuses ctx n s' e

theorem SomeRefuses.of_alike
    {parts : List Standard} {s s' : Layered ν} {e : HandlerError} (h : SomeRefuses parts s' e)
    (halike : s.Alike s') :
  SomeRefuses parts s e
  := by
  obtain ⟨outer, part, inner, rfl, ctx, n, s'', halike', hrefuses⟩ := h
  exact ⟨outer, part, inner, rfl, ctx, n, s'', halike.trans halike', hrefuses⟩

theorem SomeRefuses.cons
    {parts : List Standard} {s : Layered ν} {e : HandlerError} (h : SomeRefuses parts s e)
    (part : Standard) :
  SomeRefuses (part :: parts) s e
  := by
  obtain ⟨outer, part', inner, rfl, ctx, n, s', halike, hrefuses⟩ := h
  exact ⟨part :: outer, part', inner, rfl, ctx, n, s', halike, hrefuses⟩

/-- Either one part of a chain ends with an error of its own, and this is how the chain ends, or
the chain calls the handler once and ends as it does, but for panics that are caught.  A stream
may be reset, but only with the code of the error. -/
theorem run_chain
    (parts : List Standard) (handler : Handler ν) (ctx : Context) (n : Nat) (s : Layered ν) :
  (∃ e t, SomeRefuses parts s e
      ∧ s.run n (chain (parts.map middleware) handler ctx) = (.done (.error e), t)
      ∧ t.stage.world.notes = s.stage.world.notes
      ∧ Signed (.done (.error e)) s.stage.stream.output t.stage.stream.output)
    ∨ ∃ ctx' n' s', s.Alike s' ∧ ∀ outcome t', s'.run n' (handler ctx') = (outcome, t') →
      ∃ t, s.run n (chain (parts.map middleware) handler ctx) = (turnAll parts outcome, t)
        ∧ t.stage.world.notes = t'.stage.world.notes
        ∧ Signed (turnAll parts outcome) t'.stage.stream.output t.stage.stream.output
  := by
  induction parts generalizing ctx n s with
  | nil =>
    apply Or.inr
    use ctx, n, s, .refl s
    exact fun outcome t' hrun => ⟨t', hrun, rfl, .inl rfl⟩
  | cons part parts ih =>
    obtain ⟨e, hraises, t, halike, hrun⟩ | ⟨ctx', n', s', halike, hcalls⟩ :=
      part.refuses_or_calls ctx n s
    · apply Or.inl
      use e, t, ⟨[], part, parts, rfl, ctx, n, s, .refl s, hraises, t, halike, hrun⟩
      exact ⟨hrun _, halike.notes, .inl halike.output⟩
    · obtain ⟨e, t', hrefuses, hrun, hnotes, hsigned⟩ | ⟨ctx'', n'', s'', halike', hrest⟩ :=
        ih ctx' n' s'
      · apply Or.inl
        obtain ⟨t, hrun', hnotes', houtput⟩ := hcalls _ _ _ hrun
        rw [turn_done] at hrun'
        have hsigned' := hsigned.sign part
        rw [turn_done, ← houtput, halike.output] at hsigned'
        use e, t, (hrefuses.of_alike halike).cons part, hrun'
        exact ⟨(hnotes'.trans hnotes).trans halike.notes, hsigned'⟩
      · apply Or.inr
        use ctx'', n'', s'', halike.trans halike'
        intro outcome u hhandler
        obtain ⟨t', hrun, hnotes, hsigned⟩ := hrest outcome u hhandler
        obtain ⟨t, hrun', hnotes', houtput⟩ := hcalls _ _ _ hrun
        use t, hrun', hnotes'.trans hnotes
        rw [houtput]
        exact hsigned.sign part

/-- A chain without a part that decodes a request ends as the handler does, but for panics that
are caught, if the context has a request. -/
theorem run_chain_of_requested
    {parts : List Standard} (hparts : decodeRequest ∉ parts) (handler : Handler ν) {ctx : Context}
    {request : Request} (hrequest : ctx.request = some request) (n : Nat) (s : Layered ν) :
  ∃ ctx' n' s', ctx'.request = some request ∧ s.Alike s' ∧
    ∀ outcome t', s'.run n' (handler ctx') = (outcome, t') →
      ∃ t, s.run n (chain (parts.map middleware) handler ctx) = (turnAll parts outcome, t)
  := by
  induction parts generalizing ctx n s with
  | nil => exact ⟨ctx, n, s, hrequest, .refl s, fun outcome t' hrun => ⟨t', hrun⟩⟩
  | cons part parts ih =>
    rw [List.mem_cons, not_or] at hparts
    obtain ⟨ctx₁, n₁, s₁, hrequest₁, halike₁, hcalls⟩ :=
      calls_of_requested (Ne.symm hparts.1) hrequest n s
    obtain ⟨ctx', n', s', hrequest', halike, hrest⟩ := ih hparts.2 hrequest₁ n₁ s₁
    use ctx', n', s', hrequest', halike₁.trans halike
    intro outcome t' hrun
    obtain ⟨t, hchain⟩ := hrest outcome t' hrun
    obtain ⟨u, hpart, -⟩ := hcalls _ _ _ hchain
    exact ⟨u, hpart⟩

end Middleware.Standard

end StreamCall
