import StreamCall.Proofs.Client.Transparency
import StreamCall.Proofs.Server.Admission
import StreamCall.Proofs.Stream.Layers

/-!
# Failures show their code only

Of an error or a panic of a unary function nothing but its code gets out of the usual chain
(`failures_show_codes_only`): what becomes of a stream, and what the caller gets, is the same for
any two functions that fail with one code.  For each it is said what one run ends with, given the
code; that has no other trace of the failure in it (`serve_failing`, `send_failing`).
-/

namespace StreamCall

open Middleware

variable {ν : Type}

/-! ### Failures -/

/-- The code that the end of a call travels as, if the call has failed. -/
def failureCode? : Outcome (Except HandlerError Response) → Option Nat
  | .done (.error e) => some e.wireCode
  | .panicked _ => some HandlerError.internalCode
  | _ => none

/-- Whether a function has failed with a code, each time it was called from one world to another:
it was called once, or not at all. -/
def World.Fails (code : Nat) (w w' : World (Sighting ν)) : Prop :=
  w'.sightings = w.sightings
    ∨ ∃ ctx request outcome,
      w'.sightings = w.sightings ++ .called ctx request :: endSightings outcome
        ∧ failureCode? outcome = some code

theorem endSightings_injective {outcome outcome' : Outcome (Except HandlerError Response)}
    (h : endSightings (ν := ν) outcome = endSightings outcome') :
  outcome = outcome'
  := by
  cases outcome with
  | done result =>
    cases outcome' with
    | done result' =>
      cases h
      rfl
    | panicked | waiting => cases h
  | panicked q =>
    cases outcome' with
    | panicked q' =>
      cases h
      rfl
    | done | waiting => cases h
  | waiting =>
    cases outcome' with
    | waiting => rfl
    | done | panicked => cases h

/-- A call that is noted is the one that has failed. -/
theorem World.Fails.failureCode?_eq
    {code : Nat} {w w' : World (Sighting ν)} (h : w.Fails code w') {ctx : Context}
    {request : Request} {outcome : Outcome (Except HandlerError Response)}
    (hcalled : w'.sightings = w.sightings ++ .called ctx request :: endSightings outcome) :
  failureCode? outcome = some code
  := by
  rw [Fails, hcalled] at h
  obtain h | ⟨ctx', request', outcome', h, hcode⟩ := h
  · simp at h
  · rw [List.append_cancel_left_eq, List.cons_eq_cons] at h
    rw [endSightings_injective h.2, hcode]

/-- What is made of a call that has failed. -/
theorem caught_of_failureCode?
    {code : Nat} {outcome : Outcome (Except HandlerError Response)}
    (h : failureCode? outcome = some code) :
  (∃ e : HandlerError, e.wireCode = code ∧ outcome.caught = .done (.ok (.error e)))
    ∨ ∃ q, HandlerError.internalCode = code ∧ outcome.caught = .done (.error q)
  := by
  obtain (e | response) | q | _ := outcome
  · exact .inl ⟨e, Option.some.inj h, rfl⟩
  · cases h
  · exact .inr ⟨q, Option.some.inj h, rfl⟩
  · cases h

/-! ### Streams in memory -/

namespace MemoryStream

/-- Reading all of the input under a limit does not touch the side that is written. -/
theorem run_intake (s : MemoryStream) (limit : Nat) :
  ∃ d t, s.run (intake limit) = (.done d, t) ∧ t.output = s.output
  := by
  cases h : s.readStopped with
  | none =>
    have hread := s.run_readAllUnder_limited h limit limit
    exact ⟨_, _, run_bind hread _, rfl⟩
  | some code =>
    have hread := s.run_readAllUnder_limited_stopped h limit limit
    exact ⟨_, _, run_bind hread _, rfl⟩

end MemoryStream

namespace Stage

/-- The code that a stream is reset with, given what its input is judged to be and the code that
the function fails with. -/
def resetCode (code : Nat) : Except EnvelopeError Envelope → Nat
  | .error _ => HandlerError.internalCode
  | .ok _ => code

/-- The usual chain reads the input under the limit and goes on with what it is judged to be. -/
theorem serve_intake
    (f : Unary ν) (max : Nat) (ctx : Context) {s : Stage ν} {d : Drained} {t : MemoryStream}
    (h : s.stream.run (intake (Envelope.maxSize max)) = (.done d, t)) :
  s.serve (chain (defaultChain max) (unary f)) ctx
    = run ⟨s.world, t⟩
      ((serveVerdict f (ctx.withBodyLimit max) (verdict max d)).bind (report s.stream.id))
  := by
  have hintake : s.run (Serving.onStream (intake (Envelope.maxSize max)))
      = (.done d, { s with stream := t }) := by
    rw [run_onStream, h]
  rw [serve, chain_defaultChain, run_streamId, Program.bind_assoc]
  exact run_bind hintake _

/-- An admitted request is what the function is called with, once; if the function fails, the
stream is reset with the code. -/
theorem run_admitted
    (f : Unary ν) (ctx : Context) (request : Request) (stream : Nat) (s : Stage (Sighting ν)) :
  ∃ ctx' u,
    let outcome := ((f ctx' request).run World.answer u).1
    let served := (s.run ((admitted f.observed ctx request).bind (report stream))).2
    served.world.sightings = s.world.sightings ++ .called ctx' request :: endSightings outcome
      ∧ ∀ code, failureCode? outcome = some code → served.stream = s.stream.cancelWrite code
  := by
  let w : World (Sighting ν) :=
    { s.world with events := s.world.events ++ [decodedEvent request s.stream.id] }
  have hlogged : s.run ((admitted f.observed ctx request).bind (report stream))
      = run { s with world := w }
        ((Serving.onSurroundings (calling f.observed (ctx.withRequest request) request)).bind
          fun answer => (respond answer).bind (report stream)) := by
    rw [← Program.bind_assoc]
    rfl
  obtain ⟨u, w', hrun, hsightings⟩ :=
    run_calling_observed f (ctx.withRequest request) request w
  have hcalling := run_onSurroundings { s with world := w }
    (calling f.observed (ctx.withRequest request) request)
  have hnotes := notes_run_bind
    (Serving.onSurroundings (calling f.observed (ctx.withRequest request) request))
    (fun answer => (respond_noteless answer).bind (report_noteless stream)) { s with world := w }
  rw [hrun] at hcalling
  rw [run_onSurroundings, hrun] at hnotes
  refine ⟨(ctx.withRequest request).withRequestId (request.idOr (.ofRandom (w.random 16).1)), u,
    ?_, ?_⟩
  · rw [hlogged, World.sightings_congr hnotes, hsightings]
    rfl
  · intro code hcode
    rw [hlogged]
    obtain ⟨e, rfl, hcaught⟩ | ⟨q, rfl, hcaught⟩ := caught_of_failureCode? hcode
    · rw [hcaught] at hcalling
      rw [run_bind hcalling]
      rfl
    · rw [hcaught] at hcalling
      rw [run_bind hcalling]
      rfl

/-- If the function fails with a code, or is not called, the stream is reset and nothing else
happens to it; the failure has no part in it but for the code. -/
theorem serve_failing
    (f : Unary ν) {max code : Nat} (ctx : Context) {s : Stage (Sighting ν)} {d : Drained}
    {t : MemoryStream} (h : s.stream.run (intake (Envelope.maxSize max)) = (.done d, t))
    (hfails : s.world.Fails code
      (s.serve (chain (defaultChain max) (unary f.observed)) ctx).2.world) :
  (s.serve (chain (defaultChain max) (unary f.observed)) ctx).2.stream
    = t.cancelWrite (resetCode code (verdict max d))
  := by
  rw [serve_intake f.observed max ctx h] at hfails ⊢
  cases hverdict : verdict max d with
  | error e => rfl
  | ok envelope =>
    rw [hverdict] at hfails
    obtain ⟨ctx', u, hsightings, hstream⟩ :=
      run_admitted f (ctx.withBodyLimit max) envelope.request s.stream.id ⟨s.world, t⟩
    exact hstream code (hfails.failureCode?_eq hsightings)

/-- A function that fails with a code in all worlds has failed with it, if it was called. -/
theorem serve_fails
    {f : Unary ν} {code : Nat}
    (hf : ∀ ctx request u, failureCode? ((f ctx request).run World.answer u).1 = some code)
    (max : Nat) (ctx : Context) (s : Stage (Sighting ν)) :
  s.world.Fails code (s.serve (chain (defaultChain max) (unary f.observed)) ctx).2.world
  := by
  obtain ⟨d, t, hintake, -⟩ := s.stream.run_intake (Envelope.maxSize max)
  rw [serve_intake f.observed max ctx hintake]
  cases verdict max d with
  | error e => exact .inl rfl
  | ok envelope =>
    obtain ⟨ctx', u, hsightings, -⟩ :=
      run_admitted f (ctx.withBodyLimit max) envelope.request s.stream.id ⟨s.world, t⟩
    exact .inr ⟨ctx', envelope.request, _, hsightings, hf ctx' envelope.request u⟩

end Stage

/-! ### Callers -/

namespace Client

/-- The error of a response that was reset with a code. -/
def resetError (code : Nat) : ClientError :=
  .io (.stream (.reset (Transport.capCode code)))

/-- The code that the response to a request is reset with, given the code that the function fails
with. -/
def codeFor (max code : Nat) (envelope : Envelope) : Nat :=
  if (Envelope.encode envelope).length ≤ Envelope.maxSize max ∧ envelope.body.length ≤ max then code
  else HandlerError.internalCode

theorem beyond_of_not_within {max : Nat} {envelope : Envelope}
    (h : ¬ ((Envelope.encode envelope).length ≤ Envelope.maxSize max
      ∧ envelope.body.length ≤ max)) :
  Envelope.maxSize max < (Envelope.encode envelope).length ∨ max < envelope.body.length
  := by
  omega

theorem resultOf_of_failureCode?
    {code : Nat} {outcome : Outcome (Except HandlerError Response)}
    (h : failureCode? outcome = some code) :
  ∃ answer, outcome.caught = .done answer ∧ resultOf answer = .error (resetError code)
  := by
  obtain ⟨e, rfl, hcaught⟩ | ⟨q, rfl, hcaught⟩ := caught_of_failureCode? h
  · exact ⟨_, hcaught, rfl⟩
  · exact ⟨_, hcaught, rfl⟩

namespace Delivery

/-- A call within the limits is noted when the round trip ends, and how it has ended. -/
theorem sightings_run_roundTrip
    (f : Unary ν) {max k : Nat} {client : Plan (Sighting ν)} {server : Server.Plan (Sighting ν)}
    {d : Delivery (Sighting ν)} {request : Request}
    (h : d.Connects client k server max f.observed request.address) (w : World (Sighting ν))
    (ctx : Context) {envelope : Envelope}
    (henvelope : (stamped k ctx (.ofRandom (w.random 16).1) request).envelope = envelope)
    (hsize : (Envelope.encode envelope).length ≤ Envelope.maxSize max)
    (hbody : envelope.body.length ≤ max) :
  ∃ called u,
    let outcome := ((f called envelope.request).run World.answer u).1
    let trip := d.run w (client.roundTrip ctx request)
    trip.2.sightings = w.sightings ++ .called called envelope.request :: endSightings outcome
      ∧ ∀ answer, outcome.caught = .done answer → ∃ d', trip.1 = .done (resultOf answer, d')
  := by
  obtain ⟨called, u, w', hsightings, htrip⟩ :=
    run_roundTrip_admitted f h w ctx henvelope hsize hbody
  use called, u
  dsimp only
  generalize ((f called envelope.request).run World.answer u).1 = outcome at hsightings htrip ⊢
  cases hcaught : outcome.caught with
  | done answer =>
    rw [hcaught] at htrip
    obtain ⟨d', htrip⟩ := htrip
    rw [htrip]
    use hsightings
    rintro answer' ⟨⟩
    exact ⟨d', rfl⟩
  | panicked q | waiting =>
    rw [hcaught] at htrip
    rw [htrip]
    exact ⟨hsightings, nofun⟩

/-- If the function fails with a code, or is not called, a round trip ends with the error that
tells the code. -/
theorem run_roundTrip_failing
    (f : Unary ν) {max k code : Nat} {client : Plan (Sighting ν)}
    {server : Server.Plan (Sighting ν)} {d : Delivery (Sighting ν)} {request : Request}
    (h : d.Connects client k server max f.observed request.address) (w : World (Sighting ν))
    (ctx : Context) (hfails : w.Fails code (d.run w (client.roundTrip ctx request)).2) :
  ∃ d' w', d.run w (client.roundTrip ctx request)
    = (.done (.error (resetError (codeFor max code
      (stamped k ctx (.ofRandom (w.random 16).1) request).envelope)), d'), w')
  := by
  rw [codeFor]
  split
  · rename_i hwithin
    obtain ⟨called, u, hsightings, htrip⟩ :=
      sightings_run_roundTrip f h w ctx rfl hwithin.1 hwithin.2
    obtain ⟨answer, hcaught, hresult⟩ :=
      resultOf_of_failureCode? (hfails.failureCode?_eq hsightings)
    obtain ⟨d', htrip⟩ := htrip answer hcaught
    rw [hresult] at htrip
    exact ⟨d', _, Prod.ext htrip rfl⟩
  · rename_i hbeyond
    obtain ⟨e, d', w', -, htrip⟩ :=
      run_roundTrip_refused f.observed h w ctx rfl (beyond_of_not_within hbeyond)
    exact ⟨d', w', htrip⟩

/-- What the caller gets, if the function fails with a code or is not called. -/
theorem send_failing
    (f : Unary ν) {max k code : Nat} {client : Plan (Sighting ν)}
    {server : Server.Plan (Sighting ν)} {d : Delivery (Sighting ν)} {request : Request}
    (h : d.Connects client k server max f.observed request.address) (caller : Token)
    (cancelAt : Option Nat) (now : Nat) (w : World (Sighting ν)) (ctx : Context) (child : Token)
    (hfails : w.Fails code
      (send (setting caller) cancelAt now (w, d) client.roundTrip ctx child request).state.1) :
  (send (setting caller) cancelAt now (w, d) client.roundTrip ctx child request).outcome
    = .done (.error
      (if w.tokens.isCancelled caller || cancelAt.any (· ≤ now) then .cancelled
        else resetError (codeFor max code
          (stamped k (ctx.withToken child) (.ofRandom (w.random 16).1) request).envelope)))
  := by
  rw [send] at hfails ⊢
  have hcaller : (setting (ν := Sighting ν) caller).isCancelled (w, d)
      = w.tokens.isCancelled caller := rfl
  rw [hcaller] at hfails ⊢
  split
  · rfl
  · rename_i hlive
    rw [if_neg hlive, race_state] at hfails
    obtain ⟨d', w', htrip⟩ := run_roundTrip_failing f h w (ctx.withToken child) hfails
    rw [race_of_run htrip]

/-- A function that fails with a code in all worlds has failed with it, if it was called. -/
theorem send_fails
    {f : Unary ν} {code : Nat}
    (hf : ∀ ctx request u, failureCode? ((f ctx request).run World.answer u).1 = some code)
    {max k : Nat} {client : Plan (Sighting ν)} {server : Server.Plan (Sighting ν)}
    {d : Delivery (Sighting ν)} {request : Request}
    (h : d.Connects client k server max f.observed request.address) (caller : Token)
    (cancelAt : Option Nat) (now : Nat) (w : World (Sighting ν)) (ctx : Context) (child : Token) :
  w.Fails code
    (send (setting caller) cancelAt now (w, d) client.roundTrip ctx child request).state.1
  := by
  rw [send]
  split
  · exact .inl rfl
  · rw [race_state]
    by_cases hwithin :
        (Envelope.encode (stamped k (ctx.withToken child) (.ofRandom (w.random 16).1)
          request).envelope).length ≤ Envelope.maxSize max
        ∧ (stamped k (ctx.withToken child) (.ofRandom (w.random 16).1)
          request).envelope.body.length ≤ max
    · obtain ⟨called, u, hsightings, -⟩ :=
        sightings_run_roundTrip f h w (ctx.withToken child) rfl hwithin.1 hwithin.2
      exact .inr ⟨called, _, _, hsightings, hf ..⟩
    · obtain ⟨e, d', w', hnotes, htrip⟩ :=
        run_roundTrip_refused f.observed h w (ctx.withToken child) rfl
          (beyond_of_not_within hwithin)
      rw [htrip]
      exact .inl (World.sightings_congr hnotes)

end Delivery

end Client

open Client

/-- Of a failure nothing but its code gets out.  For two functions that fail with one code, or
are not called, a stream with a request is left in the same state by the usual chain, without a
byte written and reset with the same code, and a caller of the one gets the same error as a
caller of the other. -/
theorem failures_show_codes_only (f g : Unary ν) (max code : Nat) :
  (∀ (s s' : Stage (Sighting ν)) (ctx ctx' : Context), s'.stream = s.stream →
    let served := (s.serve (chain (defaultChain max) (unary f.observed)) ctx).2
    let served' := (s'.serve (chain (defaultChain max) (unary g.observed)) ctx').2
    s.world.Fails code served.world → s'.world.Fails code served'.world →
    served'.stream = served.stream ∧ served.stream.written = s.stream.written
      ∧ ∃ c, served.stream.side = s.stream.side.cancel c)
  ∧ ∀ (client : Client.Plan (Sighting ν)) (k : Nat) (server server' : Server.Plan (Sighting ν))
      (d d' : Delivery (Sighting ν)) (request : Request),
    d.Connects client k server max f.observed request.address →
    d'.Connects client k server' max g.observed request.address →
    ∀ (caller : Token) (cancelAt : Option Nat) (now : Nat) (w : World (Sighting ν)) (ctx : Context)
      (child : Token),
    let finish := send (Delivery.setting caller) cancelAt now (w, d) client.roundTrip ctx child
      request
    let finish' := send (Delivery.setting caller) cancelAt now (w, d') client.roundTrip ctx child
      request
    w.Fails code finish.state.1 → w.Fails code finish'.state.1 →
    ∃ e, finish.outcome = .done (.error e) ∧ finish'.outcome = .done (.error e)
  := by
  constructor
  · intro s s' ctx ctx' hstream
    dsimp only
    intro hfails hfails'
    obtain ⟨d, t, hintake, houtput⟩ := s.stream.run_intake (Envelope.maxSize max)
    -- What is left of either stream is told by its input and the code alone.
    rw [Stage.serve_failing f ctx hintake hfails,
      Stage.serve_failing g ctx' (hstream ▸ hintake) hfails']
    generalize Stage.resetCode code (verdict max d) = c
    have hcancelled : (t.cancelWrite c).output = cancelOutput c s.stream.output :=
      (t.output_answer (.cancelWrite c)).trans (congrArg (cancelOutput c) houtput)
    exact ⟨rfl, congrArg Prod.snd hcancelled, c, congrArg Prod.fst hcancelled⟩
  · intro client k server server' d d' request h h' caller cancelAt now w ctx child
    dsimp only
    intro hfails hfails'
    exact ⟨_, Delivery.send_failing f h caller cancelAt now w ctx child hfails,
      Delivery.send_failing g h' caller cancelAt now w ctx child hfails'⟩

/-- A function that panics. -/
def tellingPanic : Unary Unit := fun _ _ => .panic (.text "the password is 1234")

/-- A function that fails with an error of the service that has a cause. -/
def tellingError : Unary Unit := fun _ _ =>
  .done (.error (.classify (ApiError.internal (.message "disk 3 is full")).toSource))

/-- A server that is connected has one of these functions. -/
def connectedTo (f : Unary Unit) : Delivery (Sighting Unit) :=
  { connected with handler := some (bodiless.wrap (unary f.observed)) }

theorem connectedTo_connects (f : Unary Unit) (n : Nat) :
  (connectedTo f).Connects stamping 1 bodiless 0 f.observed (lettersRequest n).address
  :=
  connectedWith_connects 0 f

theorem failures_show_codes_only_telling :
  let served (f : Unary Unit) := (Stage.smallStage.serve
    (StreamCall.chain (defaultChain 2) (unary f.observed)) default).2
  let finish (f : Unary Unit) := send (Delivery.setting callerContext.token) none 0
    (stillWorld, connectedTo f) stamping.roundTrip callerContext ⟨[2, 1]⟩ (lettersRequest 3)
  (Stage.smallStage.world.Fails 500 (served tellingPanic).world
      ∧ Stage.smallStage.world.Fails 500 (served tellingError).world
      ∧ stillWorld.Fails 500 (finish tellingPanic).state.1
      ∧ stillWorld.Fails 500 (finish tellingError).state.1)
    ∧ (served tellingError).stream = (served tellingPanic).stream
    ∧ ∃ e, (finish tellingPanic).outcome = .done (.error e)
      ∧ (finish tellingError).outcome = .done (.error e)
  := by
  intro served finish
  have hpanic := Stage.serve_fails (f := tellingPanic) (fun _ _ _ => rfl) 2 default Stage.smallStage
  have herror := Stage.serve_fails (f := tellingError) (fun _ _ _ => rfl) 2 default Stage.smallStage
  have hpanic' := Delivery.send_fails (f := tellingPanic) (fun _ _ _ => rfl)
    (connectedTo_connects tellingPanic 3) callerContext.token none 0 stillWorld callerContext
    ⟨[2, 1]⟩
  have herror' := Delivery.send_fails (f := tellingError) (fun _ _ _ => rfl)
    (connectedTo_connects tellingError 3) callerContext.token none 0 stillWorld callerContext
    ⟨[2, 1]⟩
  obtain ⟨hstreams, -⟩ := failures_show_codes_only tellingPanic tellingError 2 500
  obtain ⟨-, hcallers⟩ := failures_show_codes_only tellingPanic tellingError 0 500
  refine ⟨⟨hpanic, herror, hpanic', herror'⟩, ?_, ?_⟩
  · exact (hstreams _ _ _ _ rfl hpanic herror).1
  · exact hcallers _ _ _ _ _ _ _ (connectedTo_connects tellingPanic 3)
      (connectedTo_connects tellingError 3) _ _ _ _ _ _ hpanic' herror'

end StreamCall
