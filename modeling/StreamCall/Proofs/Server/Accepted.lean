import StreamCall.Proofs.Server.Observation
import StreamCall.Proofs.Stream.Wire
import StreamCall.Server.Accepted

/-!
# Serving accepted streams

What the peer of an accepted stream gets when the usual chain serves it: `replyTo` is that for
each way in which the function ends, and `run_serve_admitted` says that the peer gets it.  A
request over the limit is reset without a call (`run_serve_refused`).
-/

namespace StreamCall

open Middleware

variable {ν α β : Type}

namespace WireStream

/-- Runs a program that serves a stream of a connection; its panics are results. -/
def settled (s : WireStream) (w : World ν) (p : Serving ν α) :
    Outcome (Except Payload α × WireStream) × World ν :=
  (Program.settle meaning s p).run World.answer w

theorem settled_bind
    {s s' : WireStream} {w w' : World ν} {p : Serving ν α} {a : α}
    (h : s.settled w p = (.done (.ok a, s'), w')) (f : α → Serving ν β) :
  s.settled w (p.bind f) = s'.settled w' (f a)
  := by
  rw [settled, Program.settle_bind, Program.run_bind, ← settled, h]
  rfl

theorem settled_bind_waiting
    {s : WireStream} {w w' : World ν} {p : Serving ν α} (h : s.settled w p = (.waiting, w'))
    (f : α → Serving ν β) :
  s.settled w (p.bind f) = (.waiting, w')
  := by
  rw [settled, Program.settle_bind, Program.run_bind, ← settled, h]

theorem run_meaning_inr
    {s : WireStream} {w : World ν} {op : StreamOp} {r : op.Answer × WireStream}
    (h : s.answer? w.clock op = some r) :
  (s.meaning (ν := ν) (.inr op)).run World.answer w = (.done r, w)
  := by
  have hnow : w.answer .now = some (w.clock, w) := rfl
  apply (Program.run_step (S := Ambient ν) hnow _).trans
  dsimp only
  rw [h]
  rfl

theorem settled_inr
    {s s' : WireStream} {w : World ν} {op : StreamOp} {answer : op.Answer}
    (h : s.answer? w.clock op = some (answer, s')) (next : op.Answer → Serving ν α) :
  s.settled w (.step (.inr op) next) = s'.settled w (next answer)
  := by
  apply (Program.run_bind ..).trans
  rw [run_meaning_inr h]
  rfl

/-- A program on the stream alone is settled as it uses the stream. -/
theorem settled_onStream
    {s s' : WireStream} {w : World ν} {p : Stream.Use α} {a : α}
    (h : s.use? w.clock p = some (a, s')) :
  s.settled w (Serving.onStream p) = (.done (.ok a, s'), w)
  := by
  induction p generalizing s with
  | done a =>
    cases h
    rfl
  | panic q => cases h
  | step op next ih =>
    rw [use?] at h
    cases hanswer : s.answer? w.clock op with
    | none =>
      rw [hanswer] at h
      cases h
    | some r =>
      rw [hanswer] at h
      exact (settled_inr hanswer _).trans (ih r.1 h)

/-- A program on the surroundings alone leaves the stream as it is. -/
theorem settled_onSurroundings (s : WireStream) (w : World ν) (p : Program (Ambient ν) α) :
  s.settled w (Serving.onSurroundings p)
    = match p.run World.answer w with
      | (.done a, w') => (.done (.ok a, s), w')
      | (.panicked q, w') => (.done (.error q, s), w')
      | (.waiting, w') => (.waiting, w')
  := by
  induction p generalizing w with
  | done a => rfl
  | panic q => rfl
  | step op next ih =>
    have hstep : s.settled w (Serving.onSurroundings (.step op next))
        = (Program.step (S := Ambient ν) op fun answer =>
          Program.settle meaning s (Serving.onSurroundings (next answer))).run World.answer w := rfl
    cases hanswer : w.answer op with
    | none => rw [hstep, Program.run_step_waiting hanswer, Program.run_step_waiting hanswer]
    | some r =>
      rw [hstep, Program.run_step hanswer, Program.run_step hanswer]
      exact ih r.1 r.2

end WireStream

/-! ### Replies -/

/-- What the peer gets for what was made of a call: the text that is sent, and the signal behind
it. -/
def replyTo : Except Payload (Except HandlerError Response) → Bytes × Signal
  | .ok (.ok response) => (Envelope.encode response.envelope, .finish)
  | .ok (.error e) => ([], .reset (Transport.capCode e.wireCode))
  | .error _ => ([], .reset (Transport.capCode HandlerError.internalCode))

namespace WireStream

/-- The stream once a reply has been sent. -/
def replied (s : WireStream) (reply : Bytes × Signal) : WireStream :=
  { s with sent := s.sent ++ reply.1, side := .closed, signals := s.signals ++ [reply.2] }

theorem IsOpen.cancelWrite {s : WireStream} (h : s.IsOpen) (code : Nat) :
  s.cancelWrite code = s.replied ([], .reset (Transport.capCode code))
  := by
  rw [WireStream.cancelWrite, h.isOpen, replied, List.append_nil]

/-- A failure is logged, and the stream is reset with its code. -/
theorem settled_report_error
    {s : WireStream} (h : s.IsOpen) (w : World ν) (stream : Nat) (e : HandlerError) :
  s.settled w (report stream (.error e))
    = (.done (.ok (.error e), s.replied ([], .reset (Transport.capCode e.wireCode))),
      { w with events := w.events ++ [failureEvent e stream] })
  := by
  rw [← h.cancelWrite]
  rfl

/-- The reply is sent, and nothing is noted. -/
theorem settled_respond
    {s : WireStream} (h : s.IsOpen) (w : World ν) (stream : Nat)
    (answer : Except Payload (Except HandlerError Response)) :
  ∃ result w', s.settled w ((respond answer).bind (report stream))
      = (.done (.ok result, s.replied (replyTo answer)), w')
    ∧ w'.notes = w.notes
  := by
  obtain q | e | response := answer
  · exact ⟨_, _, settled_report_error h w stream (.ofPanic q), rfl⟩
  · exact ⟨_, _, settled_report_error h w stream e, rfl⟩
  · refine ⟨.ok (), w, ?_, rfl⟩
    rw [respond, Program.bind_assoc,
      settled_bind (settled_onStream (use?_writeEnvelope h w.clock response.envelope))]
    rfl

theorem use?_intake {s : WireStream} (h : s.IsWhole) (now limit : Nat) :
  ∃ arrived, s.use? now (intake limit)
    = some (underLimit limit limit s.arrived.flatten, { s with arrived })
  := by
  obtain ⟨arrived, layer, hread⟩ := use?_readAllUnder h now limit limit
  refine ⟨arrived, ?_⟩
  rw [intake, Layer.limit, use?_bind hread]
  rfl

/-- The usual chain reads the input under the limit and goes on with what it is judged to be. -/
theorem settled_defaultChain
    (f : Unary ν) (max : Nat) (ctx : Context) {s : WireStream} (h : s.IsWhole) (w : World ν) :
  ∃ arrived, s.settled w (chain (defaultChain max) (unary f) ctx)
    = settled { s with arrived } w
      ((serveVerdict f (ctx.withBodyLimit max)
        (verdict max
          (underLimit (Envelope.maxSize max) (Envelope.maxSize max) s.arrived.flatten))).bind
        (report s.id))
  := by
  rw [chain_defaultChain]
  generalize Envelope.maxSize max = limit
  obtain ⟨arrived, hintake⟩ := use?_intake h w.clock limit
  refine ⟨arrived, ?_⟩
  have hid : s.settled w Serving.streamId = (.done (.ok s.id, s), w) := rfl
  rw [settled_bind hid, Program.bind_assoc, settled_bind (settled_onStream hintake)]

/-- An admitted request is what the function is called with, once; the peer gets the reply to
what was made of the call, and nothing but the function leaves notes. -/
theorem settled_admitted
    (f : Unary ν) (ctx : Context) (request : Request) (stream : Nat) {s : WireStream}
    (h : s.IsOpen) (w : World ν) :
  let ctx' := (ctx.withRequest request).withRequestId
    (request.idOr (.ofRandom (w.random 16).1))
  ∃ u w', u.notes = w.notes ∧ w'.notes = ((f ctx' request).run World.answer u).2.notes
    ∧ match ((f ctx' request).run World.answer u).1.caught with
      | .done answer => ∃ result,
        s.settled w ((admitted f ctx request).bind (report stream))
          = (.done (.ok result, s.replied (replyTo answer)), w')
      | _ => s.settled w ((admitted f ctx request).bind (report stream)) = (.waiting, w')
  := by
  intro ctx'
  let w₁ : World ν := { w with events := w.events ++ [decodedEvent request s.id] }
  have hlogged : s.settled w ((admitted f ctx request).bind (report stream))
      = s.settled w₁
        ((Serving.onSurroundings (calling f (ctx.withRequest request) request)).bind
          fun answer => (respond answer).bind (report stream)) := by
    rw [← Program.bind_assoc]
    rfl
  obtain ⟨u, w₂, hnotes, hrun, hnotes₂⟩ :
      ∃ u w₂, u.notes = w.notes
        ∧ (calling f (ctx.withRequest request) request).run World.answer w₁
          = (((f ctx' request).run World.answer u).1.caught, w₂)
        ∧ w₂.notes = ((f ctx' request).run World.answer u).2.notes :=
    run_calling f (ctx.withRequest request) request w₁
  have hcalling := settled_onSurroundings s w₁ (calling f (ctx.withRequest request) request)
  rw [hrun] at hcalling
  rw [hlogged]
  refine ⟨u, ?_⟩
  cases houtcome : ((f ctx' request).run World.answer u).1.caught with
  | done answer =>
    rw [houtcome] at hcalling
    obtain ⟨result, w', hsettled, hnotes'⟩ := settled_respond h w₂ stream answer
    exact ⟨w', hnotes, hnotes'.trans hnotes₂, result, (settled_bind hcalling _).trans hsettled⟩
  | panicked q =>
    exact absurd houtcome (Outcome.caught_ne_panicked _ q)
  | waiting =>
    rw [houtcome] at hcalling
    exact ⟨w₂, hnotes, hnotes₂, settled_bind_waiting hcalling _⟩

/-- What is judged badly is refused with the code of failures that name none. -/
theorem settled_defaultChain_refused
    (f : Unary ν) {max : Nat} (ctx : Context) {s : WireStream} (hwhole : s.IsWhole)
    (hopen : s.IsOpen) (w : World ν) {e : EnvelopeError}
    (hverdict : verdict max
      (underLimit (Envelope.maxSize max) (Envelope.maxSize max) s.arrived.flatten) = .error e) :
  ∃ arrived w', w'.notes = w.notes ∧ ∃ result,
    s.settled w (chain (defaultChain max) (unary f) ctx)
      = (.done (.ok result, { s with arrived }.replied (replyTo (.ok (.error
        (.classify (.envelope e)))))), w')
  := by
  obtain ⟨arrived, hchain⟩ := settled_defaultChain f max ctx hwhole w
  have hstill : IsOpen { s with arrived } := ⟨hopen.1, hopen.2, hopen.3⟩
  rw [hchain, hverdict]
  refine ⟨arrived, _, ?_, _, settled_report_error hstill w s.id (.classify (.envelope e))⟩
  rfl

/-! ### The end of the service -/

/-- After the handler the side that is written is closed already, and the server lets go. -/
theorem run_serve
    {handler : Handler ν} {s t : WireStream} {w w' : World ν} {result : Except HandlerError Unit}
    (h : s.settled w (handler (.ofToken s.token)) = (.done (.ok result, t), w'))
    (hclosed : t.side = .closed) :
  ∃ w'', (s.serve (some handler)).run World.answer w = (.done t, w'') ∧ w''.notes = w'.notes
  := by
  have htoken : s.settled w (Serving.onStream (Stream.ask .token)) = (.done (.ok s.token, s), w) :=
    rfl
  have hshutdown : t.answer? w'.clock .shutdown = some (.ok (), t) := by
    show t.shutdown? w'.clock .acknowledged = _
    rw [shutdown?, if_pos hclosed]
    rfl
  have hdrop : t.drop = t := by
    rw [drop, WireStream.cancelWrite, hclosed]
  have hclose : t.settled w' (Serving.onStream (Stream.ask .shutdown))
      = (.done (.ok (.ok ()), t), w') :=
    settled_onStream (use?_step .shutdown hshutdown _)
  have hserved : s.settled w (serveAccepted (some handler)) = (.done (.ok (), t), w') :=
    (settled_bind htoken _).trans ((settled_bind h _).trans (settled_bind hclose _))
  refine ⟨{ w' with tokens := w'.tokens.cancel t.token }, ?_, rfl⟩
  rw [serve, Program.run_bind, ← settled, hserved]
  exact congrArg (fun t => (Outcome.done t, _)) hdrop

theorem run_serve_waiting
    {handler : Handler ν} {s : WireStream} {w w' : World ν}
    (h : s.settled w (handler (.ofToken s.token)) = (.waiting, w')) :
  (s.serve (some handler)).run World.answer w = (.waiting, w')
  := by
  have htoken : s.settled w (Serving.onStream (Stream.ask .token)) = (.done (.ok s.token, s), w) :=
    rfl
  have hserved : s.settled w (serveAccepted (some handler)) = (.waiting, w') :=
    (settled_bind htoken _).trans (settled_bind_waiting h _)
  rw [serve, Program.run_bind, ← settled, hserved]

/-- Over the usual chain a request within the limit is what the function is called with, once,
and the peer gets the reply to what was made of the call. -/
theorem run_serve_admitted
    (f : Unary ν) {max : Nat} {s : WireStream} (hwhole : s.IsWhole) (hopen : s.IsOpen)
    (w : World ν) {envelope : Envelope}
    (hverdict : verdict max
      (underLimit (Envelope.maxSize max) (Envelope.maxSize max) s.arrived.flatten)
        = .ok envelope) :
  let ctx := Context.called s.token max envelope.request
    (envelope.request.idOr (.ofRandom (w.random 16).1))
  ∃ u w', u.notes = w.notes ∧ w'.notes = ((f ctx envelope.request).run World.answer u).2.notes
    ∧ match ((f ctx envelope.request).run World.answer u).1.caught with
      | .done answer => ∃ arrived,
        (s.serve (some (chain (defaultChain max) (unary f)))).run World.answer w
          = (.done ({ s with arrived }.replied (replyTo answer)), w')
      | _ => (s.serve (some (chain (defaultChain max) (unary f)))).run World.answer w
          = (.waiting, w')
  := by
  intro ctx
  obtain ⟨arrived, hchain⟩ := settled_defaultChain f max (.ofToken s.token) hwhole w
  have hstill : IsOpen { s with arrived } := ⟨hopen.1, hopen.2, hopen.3⟩
  obtain ⟨u, w', hnotes, hnotes', hsettled⟩ := settled_admitted f
    ((Context.ofToken s.token).withBodyLimit max) envelope.request s.id hstill w
  rw [hverdict] at hchain
  have hctx : (((Context.ofToken s.token).withBodyLimit max).withRequest
    envelope.request).withRequestId (envelope.request.idOr (.ofRandom (w.random 16).1)) = ctx := rfl
  rw [hctx] at hnotes' hsettled
  refine ⟨u, ?_⟩
  cases houtcome : ((f ctx envelope.request).run World.answer u).1.caught with
  | done answer =>
    rw [houtcome] at hsettled
    obtain ⟨result, hanswer⟩ := hsettled
    obtain ⟨w'', hserve, hsame⟩ := run_serve (hchain.trans hanswer) rfl
    exact ⟨w'', hnotes, hsame.trans hnotes', arrived, hserve⟩
  | panicked q =>
    exact absurd houtcome (Outcome.caught_ne_panicked _ q)
  | waiting =>
    rw [houtcome] at hsettled
    exact ⟨w', hnotes, hnotes', run_serve_waiting (hchain.trans hsettled)⟩

/-- Over the usual chain a request over the limit is reset, and the function is not called. -/
theorem run_serve_refused
    (f : Unary ν) {max : Nat} {s : WireStream} (hwhole : s.IsWhole) (hopen : s.IsOpen)
    (w : World ν) {e : EnvelopeError}
    (hverdict : verdict max
      (underLimit (Envelope.maxSize max) (Envelope.maxSize max) s.arrived.flatten) = .error e) :
  ∃ arrived w', w'.notes = w.notes
    ∧ (s.serve (some (chain (defaultChain max) (unary f)))).run World.answer w
      = (.done ({ s with arrived }.replied
        (replyTo (.ok (.error (.classify (.envelope e)))))), w')
  := by
  obtain ⟨arrived, w', hnotes, result, hsettled⟩ :=
    settled_defaultChain_refused f (.ofToken s.token) hwhole hopen w hverdict
  obtain ⟨w'', hserve, hnotes'⟩ := run_serve hsettled rfl
  exact ⟨arrived, w'', hnotes'.trans hnotes, hserve⟩

end WireStream

end StreamCall
