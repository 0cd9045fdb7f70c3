import StreamCall.Proofs.Client.RoundTrip
import StreamCall.Proofs.Envelope.Size
import StreamCall.Proofs.Server.Accepted
import StreamCall.Server.Plan

/-!
# Calls are transparent

A call to a server with the usual chain is a call of its function: where a connection is up and
the request that leaves the client is within the limit, the function is called once, with the
body and the headers that were sent, and the caller gets what it returns
(`send_transparent`).  A request over the limit does not get to the function
(`send_refused`).
-/

namespace StreamCall.Client

open Middleware (defaultChain)

variable {ν : Type}

/-! ### Replies -/

/-- What the caller gets for what was made of a call. -/
def resultOf : Except Payload (Except HandlerError Response) → Except ClientError Response
  | .ok (.ok response) => .ok response
  | .ok (.error e) => .error (.io (.stream (.reset (Transport.capCode e.wireCode))))
  | .error _ => .error (.io (.stream (.reset (Transport.capCode HandlerError.internalCode))))

theorem arrived_collected (answer : Except Payload (Except HandlerError Response)) :
  arrived (WireStream.collected (replyTo answer)) = resultOf answer
  := by
  obtain q | e | response := answer
  · rfl
  · rfl
  · rw [replyTo, WireStream.collected, arrived, Envelope.decode_encode]
    rfl

/-! ### Without limits -/

/-- A call without a time limit that nobody cancels runs to its end. -/
theorem send_eq_race
    {σ : Type} {setting : Setting ν σ} {s : σ} (hcaller : setting.isCancelled s = false)
    {request : Request} (htimeless : timeLimit request = none) (trip : RoundTrip ν)
    (ctx : Context) (child : Token) (now : Nat) :
  send setting none now s trip ctx child request
    = race setting ⟨none, none⟩ now s (trip (ctx.withToken child) request)
  := by
  rw [send, hcaller, htimeless]
  rfl

namespace Delivery

/-- What the server makes of a stream on which the client has sent all of a document. -/
def acceptedFrom (d : Delivery ν) (s : WireStream) (token : Token) : WireStream :=
  { WireStream.fresh s.id token with arrived := d.cut s.sent, ended := some .finish }

/-- The server serves what it has accepted, and the client can collect the reply that is sent
there. -/
theorem run_exchange
    {d : Delivery ν} (hcut : ∀ data, (d.cut data).flatten = data) {stream : Nat} {s : WireStream}
    {envelope : Envelope} (h : d.Awaits stream s envelope) (w : World ν) :
  ∃ token w₁, w₁.notes = w.notes
    ∧ (d.acceptedFrom s token).arrived.flatten = Envelope.encode envelope
    ∧ (∀ arrived reply w', ((d.acceptedFrom s token).serve d.handler).run World.answer w₁
        = (.done ({ d.acceptedFrom s token with arrived }.replied reply), w') →
      ∃ t, (d.exchange s).run World.answer w = (.done t, w')
        ∧ ∀ now chunk, 0 < chunk →
          ∃ t', t.collect? now chunk = some (WireStream.collected reply, t'))
    ∧ (∀ w', ((d.acceptedFrom s token).serve d.handler).run World.answer w₁ = (.waiting, w') →
      (d.exchange s).run World.answer w = (.waiting, w'))
  := by
  let token := (w.tokens.child d.token).1
  let w₁ := { w with tokens := (w.tokens.child d.token).2 }
  have hflatten : (d.acceptedFrom s token).arrived.flatten = Envelope.encode envelope := by
    rw [acceptedFrom, hcut, h.sent]
  have haccepted : (s.outgoing d.cut).foldl WireStream.receive (.fresh s.id token)
      = d.acceptedFrom s token :=
    WireStream.foldl_receive_finished rfl h.signals d.cut
  have hexchange : (d.exchange s).run World.answer w
      = (((d.acceptedFrom s token).serve d.handler).bind fun served =>
        .done ((served.outgoing d.cut).foldl WireStream.receive s)).run World.answer w₁ := by
    rw [← haccepted]
    rfl
  refine ⟨token, w₁, rfl, hflatten, ?_, ?_⟩
  · intro arrived reply w' hserve
    let served := { d.acceptedFrom s token with arrived }.replied reply
    have hsent : served.sent = reply.1 := List.nil_append _
    have hsignals : served.signals = [reply.2] := List.nil_append _
    refine ⟨(served.outgoing d.cut).foldl WireStream.receive s, ?_, fun now chunk hchunk =>
      WireStream.collect?_outgoing h.unread hsent hsignals hcut now hchunk⟩
    rw [hexchange, Program.run_bind, hserve]
    rfl
  · intro w' hserve
    rw [hexchange, Program.run_bind, hserve]

/-- A request within the limit is what the function is called with, once, and the client can
collect the reply to what was made of the call. -/
theorem run_exchange_admitted
    (f : Unary ν) {max : Nat} {d : Delivery ν} {s : WireStream}
    (hhandler : d.handler = some (StreamCall.chain (defaultChain max) (unary f)))
    (hcut : ∀ data, (d.cut data).flatten = data) {stream : Nat} {envelope : Envelope}
    (h : d.Awaits stream s envelope)
    (hsize : (Envelope.encode envelope).length ≤ Envelope.maxSize max)
    (hbody : envelope.body.length ≤ max) (w : World ν) :
  ∃ ctx u w', ctx.IsCalled max envelope.request ∧ u.notes = w.notes
    ∧ w'.notes = ((f ctx envelope.request).run World.answer u).2.notes
    ∧ match ((f ctx envelope.request).run World.answer u).1.caught with
      | .done answer => ∃ t, (d.exchange s).run World.answer w = (.done t, w')
        ∧ ∀ now chunk, 0 < chunk →
          ∃ t', t.collect? now chunk = some (WireStream.collected (replyTo answer), t')
      | _ => (d.exchange s).run World.answer w = (.waiting, w')
  := by
  obtain ⟨token, w₁, hnotes, hflatten, hreplied, hwaiting⟩ := run_exchange hcut h w
  have hverdict : verdict max (underLimit (Envelope.maxSize max) (Envelope.maxSize max)
      (d.acceptedFrom s token).arrived.flatten) = .ok envelope := by
    rw [hflatten, verdict_of_short hsize, Envelope.decode_encode]
    exact if_neg (Nat.not_lt.mpr hbody)
  obtain ⟨u, w', hbefore, hafter, hserve⟩ :=
    WireStream.run_serve_admitted f (s := d.acceptedFrom s token) ⟨rfl, rfl, rfl⟩ ⟨rfl, rfl, rfl⟩
      w₁ hverdict
  rw [← hhandler] at hserve
  have hcalled := Context.isCalled (d.acceptedFrom s token).token max envelope.request w₁
  generalize Context.called (d.acceptedFrom s token).token max envelope.request
    (envelope.request.idOr (.ofRandom (w₁.random 16).1)) = ctx at hcalled hafter hserve
  refine ⟨ctx, u, w', hcalled, hbefore.trans hnotes, hafter, ?_⟩
  generalize ((f ctx envelope.request).run World.answer u).1.caught = outcome at hserve ⊢
  cases outcome with
  | done answer =>
    obtain ⟨arrived, hserve⟩ := hserve
    exact hreplied arrived (replyTo answer) w' hserve
  | panicked q => exact hwaiting w' hserve
  | waiting => exact hwaiting w' hserve

/-- A request over a limit does not get to the function, and the client can collect that the
stream was reset. -/
theorem run_exchange_refused
    (f : Unary ν) {max : Nat} {d : Delivery ν} {s : WireStream}
    (hhandler : d.handler = some (StreamCall.chain (defaultChain max) (unary f)))
    (hcut : ∀ data, (d.cut data).flatten = data) {stream : Nat} {envelope : Envelope}
    (h : d.Awaits stream s envelope)
    (hlarge : Envelope.maxSize max < (Envelope.encode envelope).length
      ∨ max < envelope.body.length) (w : World ν) :
  ∃ e t w', w'.notes = w.notes ∧ (d.exchange s).run World.answer w = (.done t, w')
    ∧ ∀ now chunk, 0 < chunk → ∃ t', t.collect? now chunk
      = some (WireStream.collected (replyTo (.ok (.error (.classify (.envelope e))))), t')
  := by
  obtain ⟨token, w₁, hnotes, hflatten, hreplied, -⟩ := run_exchange hcut h w
  obtain ⟨e, hverdict⟩ : ∃ e, verdict max (underLimit (Envelope.maxSize max)
      (Envelope.maxSize max) (d.acceptedFrom s token).arrived.flatten) = .error e := by
    rw [hflatten]
    by_cases hsize : Envelope.maxSize max < (Envelope.encode envelope).length
    · exact ⟨_, verdict_of_long hsize max⟩
    · rw [verdict_of_short (Nat.not_lt.mp hsize), Envelope.decode_encode]
      exact ⟨_, if_pos (hlarge.resolve_left hsize)⟩
  obtain ⟨arrived, w', hnotes', hserve⟩ :=
    WireStream.run_serve_refused f (s := d.acceptedFrom s token) ⟨rfl, rfl, rfl⟩ ⟨rfl, rfl, rfl⟩
      w₁ hverdict
  rw [← hhandler] at hserve
  obtain ⟨t, hexchange, hcollect⟩ := hreplied arrived _ w' hserve
  exact ⟨_, t, w', hnotes'.trans hnotes, hexchange, hcollect⟩

/-! ### Round trips -/

/-- Whether calls to an address go to a function: the client has `k` middlewares that give
requests an id, a connection is up, nothing is lost on the way, and the server has the usual
chain around the function. -/
structure Connects (d : Delivery ν) (client : Plan ν) (k : Nat) (server : Server.Plan ν)
    (max : Nat) (f : Unary ν) (address : String) : Prop where
  stamps : client.middlewares = List.replicate k injectRequestId
  reaches : d.Reaches address
  lossless : ∀ data, (d.cut data).flatten = data
  usual : server.middlewares = defaultChain max
  installed : d.handler = some (server.wrap (unary f))

theorem Connects.handler
    {d : Delivery ν} {client : Plan ν} {k : Nat} {server : Server.Plan ν} {max : Nat} {f : Unary ν}
    {address : String} (h : d.Connects client k server max f address) :
  d.handler = some (StreamCall.chain (defaultChain max) (unary f))
  := by
  rw [h.installed, Server.Plan.wrap, h.usual]

theorem address_stamped (k : Nat) (ctx : Context) (fresh : RequestId) (request : Request) :
  (stamped k ctx fresh request).address = request.address
  := by
  rw [stamped]
  split <;> rfl

theorem body_stamped (k : Nat) (ctx : Context) (fresh : RequestId) (request : Request) :
  (stamped k ctx fresh request).body = request.body
  := by
  rw [stamped]
  split <;> rfl

/-- The round trip of a client sends the stamped request and collects the response. -/
theorem run_roundTrip
    {client : Plan ν} {k : Nat} (hclient : client.middlewares = List.replicate k injectRequestId)
    {d : Delivery ν} {request : Request} (h : d.Reaches request.address) (w : World ν)
    (ctx : Context) :
  ∃ (w' : World ν) (d' : Delivery ν) (stream : Nat) (s : WireStream), w'.notes = w.notes
    ∧ d'.handler = d.handler ∧ d'.cut = d.cut
    ∧ d'.Awaits stream s (stamped k ctx (.ofRandom (w.random 16).1) request).envelope
    ∧ d.run w (client.roundTrip ctx request)
      = d'.run w' ((ask (.collect stream client.settings.readBuffer)).bind fun read =>
        .done (arrived read))
  := by
  obtain ⟨w', hstamped, hnotes⟩ := d.run_chain_injectRequestId w k
    (physical client.settings.readBuffer) ctx request
  rw [← address_stamped k ctx (.ofRandom (w.random 16).1) request] at h
  obtain ⟨d', stream, s, hhandler, hcut, hawaits, hphysical⟩ :=
    run_physical h w' client.settings.readBuffer ctx
  refine ⟨w', d', stream, s, hnotes, hhandler, hcut, hawaits, ?_⟩
  rw [Plan.roundTrip, hclient, hstamped, hphysical]

/-- A round trip with a request within the limit calls the function once and ends with what was
made of the call. -/
theorem run_roundTrip_called
    (f : Unary ν) {max k : Nat} {client : Plan ν} {server : Server.Plan ν} {d : Delivery ν}
    {request : Request} (h : d.Connects client k server max f request.address) (w : World ν)
    (ctx : Context) {envelope : Envelope}
    (henvelope : (stamped k ctx (.ofRandom (w.random 16).1) request).envelope = envelope)
    (hsize : (Envelope.encode envelope).length ≤ Envelope.maxSize max)
    (hbody : envelope.body.length ≤ max) :
  ∃ called u w', called.IsCalled max envelope.request ∧ u.notes = w.notes
    ∧ w'.notes = ((f called envelope.request).run World.answer u).2.notes
    ∧ match ((f called envelope.request).run World.answer u).1.caught with
      | .done answer => ∃ d',
        d.run w (client.roundTrip ctx request) = (.done (resultOf answer, d'), w')
      | _ => d.run w (client.roundTrip ctx request) = (.waiting, w')
  := by
  obtain ⟨w₁, d₁, stream, s, hnotes, hhandler, hcut, hawaits, htrip⟩ :=
    run_roundTrip h.stamps h.reaches w ctx
  have hlossless : ∀ data, (d₁.cut data).flatten = data := hcut ▸ h.lossless
  rw [henvelope] at hawaits
  obtain ⟨called, u, w', hcalled, hbefore, hafter, hexchange⟩ :=
    run_exchange_admitted f (hhandler.trans h.handler) hlossless hawaits hsize hbody w₁
  refine ⟨called, u, w', hcalled, hbefore.trans hnotes, hafter, ?_⟩
  rw [htrip]
  generalize ((f called envelope.request).run World.answer u).1.caught = outcome
    at hexchange ⊢
  cases outcome with
  | done answer =>
    obtain ⟨t, hexchange, hcollect⟩ := hexchange
    obtain ⟨t', hcollect⟩ := hcollect w'.clock _ client.readBuffer_pos
    dsimp only
    rw [← arrived_collected]
    exact ⟨_, run_ask (run_collect hawaits.stream hexchange hcollect) _⟩
  | panicked q => exact run_ask_waiting (run_collect_waiting hawaits.stream hexchange) _
  | waiting => exact run_ask_waiting (run_collect_waiting hawaits.stream hexchange) _

/-- Such a call of an observed function is noted, and then how it ends. -/
theorem run_roundTrip_admitted
    (f : Unary ν) {max k : Nat} {client : Plan (Sighting ν)} {server : Server.Plan (Sighting ν)}
    {d : Delivery (Sighting ν)} {request : Request}
    (h : d.Connects client k server max f.observed request.address) (w : World (Sighting ν))
    (ctx : Context) {envelope : Envelope}
    (henvelope : (stamped k ctx (.ofRandom (w.random 16).1) request).envelope = envelope)
    (hsize : (Envelope.encode envelope).length ≤ Envelope.maxSize max)
    (hbody : envelope.body.length ≤ max) :
  ∃ called u w', w'.sightings = w.sightings ++ .called called envelope.request
      :: endSightings ((f called envelope.request).run World.answer u).1
    ∧ match ((f called envelope.request).run World.answer u).1.caught with
      | .done answer => ∃ d',
        d.run w (client.roundTrip ctx request) = (.done (resultOf answer, d'), w')
      | _ => d.run w (client.roundTrip ctx request) = (.waiting, w')
  := by
  obtain ⟨called, u, w', -, hbefore, hafter, htrip⟩ :=
    run_roundTrip_called f.observed h w ctx henvelope hsize hbody
  obtain ⟨w'', hrun, hsightings⟩ := run_observed f called envelope.request u
  rw [hrun] at hafter htrip
  refine ⟨called, u.plain, w', ?_, htrip⟩
  rw [World.sightings_congr hafter, hsightings, World.sightings_congr hbefore]

/-- A round trip with a request over a limit ends with the code of failures that name none,
and calls nothing. -/
theorem run_roundTrip_refused
    (f : Unary ν) {max k : Nat} {client : Plan ν} {server : Server.Plan ν} {d : Delivery ν}
    {request : Request} (h : d.Connects client k server max f request.address) (w : World ν)
    (ctx : Context) {envelope : Envelope}
    (henvelope : (stamped k ctx (.ofRandom (w.random 16).1) request).envelope = envelope)
    (hlarge : Envelope.maxSize max < (Envelope.encode envelope).length
      ∨ max < envelope.body.length) :
  ∃ e d' w', w'.notes = w.notes
    ∧ d.run w (client.roundTrip ctx request)
      = (.done (resultOf (.ok (.error (.classify (.envelope e)))), d'), w')
  := by
  obtain ⟨w₁, d₁, stream, s, hnotes, hhandler, hcut, hawaits, htrip⟩ :=
    run_roundTrip h.stamps h.reaches w ctx
  have hlossless : ∀ data, (d₁.cut data).flatten = data := hcut ▸ h.lossless
  obtain ⟨e, t, w', hnotes', hexchange, hcollect⟩ :=
    run_exchange_refused f (hhandler.trans h.handler) hlossless hawaits (henvelope ▸ hlarge) w₁
  obtain ⟨t', hcollect⟩ := hcollect w'.clock _ client.readBuffer_pos
  refine ⟨e, { d₁ with streams := d₁.streams.set stream t' }, w', hnotes'.trans hnotes, ?_⟩
  rw [htrip, ← arrived_collected]
  exact run_ask (run_collect hawaits.stream hexchange hcollect) _

/-! ### Sending -/

theorem answer_setting
    (caller : Token) (now : Nat) (w : World ν) (d : Delivery ν) (op : (Calling ν).Op) :
  (setting caller).answer now (w, d) op
    = match (d.meaning op).run World.answer w with
      | (.done (answer, d), w) => (.now answer, w, d)
      | (_, w) => (.never, w, d)
  :=
  rfl

/-- A call that gets through to the end is not given up on the way. -/
theorem race_of_run
    {caller : Token} {limits : Limits} {now : Nat} {d d' : Delivery ν} {w w' : World ν}
    {p : Program (Calling ν) (Except ClientError Response)} {result : Except ClientError Response}
    (h : d.run w p = (.done (result, d'), w')) :
  race (setting caller) limits now (w, d) p = ⟨.done result, now, (w', d')⟩
  := by
  induction p generalizing d w with
  | done result =>
    cases h
    rfl
  | panic q => cases h
  | step op next ih =>
    rw [run, Program.through, Program.run_bind] at h
    rw [race, answer_setting]
    generalize (d.meaning op).run World.answer w = answered at h ⊢
    obtain ⟨outcome, w₁⟩ := answered
    cases outcome with
    | done r => exact ih r.1 h
    | panicked q => cases h
    | waiting => cases h

/-- What has happened by the time a call ends has happened, even if it is given up. -/
theorem race_state
    (caller : Token) (limits : Limits) (now : Nat) (d : Delivery ν) (w : World ν)
    (p : Program (Calling ν) (Except ClientError Response)) :
  (race (setting caller) limits now (w, d) p).state.1 = (d.run w p).2
  := by
  induction p generalizing d w with
  | done result => rfl
  | panic q => rfl
  | step op next ih =>
    rw [run, Program.through, Program.run_bind, race, answer_setting]
    generalize (d.meaning op).run World.answer w = answered
    obtain ⟨outcome, w'⟩ := answered
    cases outcome with
    | done r => exact ih r.1 r.2 w'
    | panicked q | waiting =>
      dsimp only
      split
      · rfl
      · split
        · rfl
        · rfl

theorem race_of_run_waiting
    {caller : Token} {limits : Limits} {now : Nat} {d : Delivery ν} {w w' : World ν}
    {p : Program (Calling ν) (Except ClientError Response)} (h : d.run w p = (.waiting, w')) :
  (race (setting caller) limits now (w, d) p).state.1 = w'
  := by
  rw [race_state, h]

/-- The server of a call gets the stamped request, if it is within the limit: the function is
called once, with the body and the headers that were sent, and the caller gets the response the
function returns, or an error with the code of its error or of a panic. -/
theorem send_transparent
    (f : Unary ν) {max k : Nat} {client : Plan (Sighting ν)} {server : Server.Plan (Sighting ν)}
    {d : Delivery (Sighting ν)} {request : Request}
    (h : d.Connects client k server max f.observed request.address)
    (htimeless : timeLimit request = none) {caller : Token} {w : World (Sighting ν)}
    (hcaller : w.tokens.isCancelled caller = false) (ctx : Context) (child : Token) (now : Nat)
    (hbody : request.body.length ≤ max)
    (hsize : (Envelope.encode
      (stamped k ctx (.ofRandom (w.random 16).1) request).envelope).length
        ≤ Envelope.maxSize max) :
  let sent := stamped k ctx (.ofRandom (w.random 16).1) request
  let received : Request :=
    { address := "", timeout := none, body := request.body, headers := sent.headers }
  let finish := send (setting caller) none now (w, d) client.roundTrip ctx child request
  ∃ called u,
    let outcome := ((f called received).run World.answer u).1
    finish.state.1.sightings = w.sightings ++ .called called received :: endSightings outcome
    ∧ (∀ response, outcome = .done (.ok response) → finish.outcome = .done (.ok response))
    ∧ (∀ e, outcome = .done (.error e) → ∃ e', finish.outcome = .done (.error e')
      ∧ e'.streamCode? = some (min e.wireCode (Nat.pow 2 62 - 1)))
    ∧ (∀ q, outcome = .panicked q → ∃ e', finish.outcome = .done (.error e')
      ∧ e'.streamCode? = some 500)
  := by
  intro sent received finish
  have hfinish : finish = race (setting caller) ⟨none, none⟩ now (w, d)
      (client.roundTrip (ctx.withToken child) request) :=
    send_eq_race (s := (w, d)) hcaller htimeless client.roundTrip ctx child now
  have henvelope : sent.envelope = ⟨request.body, sent.headers⟩ := by
    rw [Request.envelope, body_stamped]
  rw [henvelope] at hsize
  obtain ⟨called, u, w', hsightings, htrip⟩ :=
    run_roundTrip_admitted f h w (ctx.withToken child) henvelope hsize hbody
  have hreceived : Envelope.request ⟨request.body, sent.headers⟩ = received := rfl
  rw [hreceived] at hsightings htrip
  refine ⟨called, u, ?_⟩
  dsimp only
  generalize ((f called received).run World.answer u).1 = outcome at hsightings htrip ⊢
  have hended : ∀ answer, outcome.caught = .done answer →
      finish.state.1.sightings = w'.sightings ∧ finish.outcome = .done (resultOf answer) := by
    intro answer hanswer
    rw [hanswer] at htrip
    obtain ⟨d', htrip⟩ := htrip
    rw [hfinish, race_of_run htrip]
    exact ⟨rfl, rfl⟩
  cases outcome with
  | done result =>
    obtain ⟨hsame, houtcome⟩ := hended _ rfl
    refine ⟨hsame.trans hsightings, ?_, ?_, ?_⟩
    · rintro response h
      cases h
      exact houtcome
    · rintro e h
      cases h
      exact ⟨_, houtcome, rfl⟩
    · rintro q h
      cases h
  | panicked q =>
    obtain ⟨hsame, houtcome⟩ := hended _ rfl
    refine ⟨hsame.trans hsightings, ?_, ?_, ?_⟩
    · rintro response h
      cases h
    · rintro e h
      cases h
    · rintro q h
      exact ⟨_, houtcome, by decide⟩
  | waiting =>
    rw [hfinish]
    refine ⟨?_, ?_, ?_, ?_⟩
    · rw [race_of_run_waiting htrip, hsightings]
    · rintro response h
      cases h
    · rintro e h
      cases h
    · rintro q h
      cases h

/-- A request that is over the limit when it leaves the client does not get to the function: the
caller gets an error with the code of failures that name none. -/
theorem send_refused
    (f : Unary ν) {max k : Nat} {client : Plan ν} {server : Server.Plan ν} {d : Delivery ν}
    {request : Request} (h : d.Connects client k server max f request.address)
    (htimeless : timeLimit request = none) {caller : Token} {w : World ν}
    (hcaller : w.tokens.isCancelled caller = false) (ctx : Context) (child : Token) (now : Nat)
    (hsize : Envelope.maxSize max < (Envelope.encode
      (stamped k ctx (.ofRandom (w.random 16).1) request).envelope).length) :
  let finish := send (setting caller) none now (w, d) client.roundTrip ctx child request
  finish.state.1.notes = w.notes ∧ ∃ e, finish.outcome = .done (.error e) ∧ e.streamCode? = some 500
  := by
  intro finish
  have hfinish : finish = race (setting caller) ⟨none, none⟩ now (w, d)
      (client.roundTrip (ctx.withToken child) request) :=
    send_eq_race (s := (w, d)) hcaller htimeless client.roundTrip ctx child now
  obtain ⟨e, d', w', hnotes, htrip⟩ :=
    run_roundTrip_refused f h w (ctx.withToken child) rfl (.inl hsize)
  rw [hfinish, race_of_run htrip]
  exact ⟨hnotes, _, rfl, rfl⟩

end Delivery

/-- A request without an id is longer when it leaves a client that stamps it. -/
theorem length_encode_lt_stamped
    {k : Nat} (hk : k ≠ 0) (ctx : Context) (fresh : RequestId) {request : Request}
    (hid : request.headers.get? RequestId.header = none) :
  (Envelope.encode request.envelope).length
    < (Envelope.encode (stamped k ctx fresh request).envelope).length
  := by
  have hcontains : request.headers.contains RequestId.header = false := by
    rw [Headers.contains, hid]
    rfl
  rw [stamped, if_neg (by simp [hk, hcontains])]
  exact Envelope.length_encode_lt_insert request.body hid _

/-! ### At the limit -/

/-- A request without a body whose one header has a value of `n` letters. -/
def lettersRequest (n : Nat) : Request :=
  ⟨"a", none, [], .ofList [("a", String.ofList (List.replicate n 'a'))]⟩

theorem length_encode_lettersRequest (n : Nat) :
  (Envelope.encode (lettersRequest n).envelope).length = n + 30
  := by
  have hentries : (lettersRequest n).headers.entries
      = [("a", String.ofList (List.replicate n 'a'))] := rfl
  have hletter : String.utf8EncodeChar 'a' = [0x61] := by decide
  have hwritten : Envelope.writeByte 0x61 = [0x61] := by decide
  have hvalue : (Envelope.writeString (String.ofList (List.replicate n 'a'))).length = n + 2 := by
    rw [Envelope.writeString, Utf8.encode_ofList, List.flatMap_replicate, hletter,
      List.flatten_replicate_singleton, List.flatMap_replicate, hwritten,
      List.flatten_replicate_singleton]
    simp
  have hname : (Envelope.writeString "a").length = 3 := by decide
  rw [Envelope.length_encode, Request.envelope]
  dsimp only
  rw [hentries, Envelope.entriesLength_cons, Envelope.writeEntry, List.length_append,
    List.length_cons, hvalue, hname, Envelope.entriesLength, lettersRequest]
  simp only [List.flatMap_nil, List.length_nil]
  omega

/-- The function that answers with nothing. -/
def answerNothing : Unary ν := fun _ _ => .done (.ok ⟨[], .empty⟩)

/-- A server with the usual chain for requests without a body. -/
def bodiless : Server.Plan ν := ⟨⟨true, .standard⟩, defaultChain 0⟩

/-- A client that stamps its requests. -/
def stamping : Plan ν := ⟨.standard, [injectRequestId]⟩

/-- A connection to the server is kept for the address `a`. -/
def connected : Delivery (Sighting Unit) :=
  { Delivery.fresh (some (bodiless.wrap (unary answerNothing.observed))) ⟨[0]⟩ with
    pool := { Pool.empty with kept := [("a", 0)], dials := 1 } }

/-- A server with the usual chain for requests of at most `max` bytes. -/
def usualServer (max : Nat) : Server.Plan ν := ⟨⟨true, .standard⟩, defaultChain max⟩

/-- A connection to such a server is kept, and it has a function. -/
def connectedWith (max : Nat) (f : Unary Unit) : Delivery (Sighting Unit) :=
  { connected with handler := some ((usualServer max).wrap (unary f.observed)) }

theorem connectedWith_connects (max : Nat) (f : Unary Unit) :
  (connectedWith max f).Connects stamping 1 (usualServer max) max f.observed "a"
  where
  stamps := rfl
  reaches := .inl rfl
  lossless := fun data => List.append_nil data
  usual := rfl
  installed := rfl

theorem connected_connects (n : Nat) :
  connected.Connects stamping 1 bodiless 0 answerNothing.observed (lettersRequest n).address
  :=
  connectedWith_connects 0 answerNothing

/-- The world that the request is sent in. -/
def stillWorld : World (Sighting Unit) := .fresh fun _ => 0

/-- The context of the call, with an id. -/
def callerContext : Context := { Context.ofToken ⟨[1]⟩ with requestId := some ⟨"7"⟩ }

theorem stillWorld_isCancelled :
  stillWorld.tokens.isCancelled callerContext.token = false
  :=
  rfl

/-- The request of `n` letters is sent over that connection. -/
def sendLetters (n : Nat) : Finish (World (Sighting Unit) × Delivery (Sighting Unit)) :=
  send (Delivery.setting callerContext.token) none 0 (stillWorld, connected) stamping.roundTrip
    callerContext ⟨[2, 1]⟩ (lettersRequest n)

/-- A function that answers a greeting by its id. -/
def greetBack : Unary Unit := fun _ request =>
  .done (.ok
    ⟨request.body ++ [0x21], .ofList [("to", (request.headers.get? RequestId.header).getD "")]⟩)

/-- A greeting of two bytes. -/
def greeting : Request := ⟨"a", none, [0x68, 0x69], .ofList [("a", "b")]⟩

/-- A greeting gets through, and is answered. -/
theorem send_transparent_greeting :
  ((connectedWith 2 greetBack).Connects stamping 1 (usualServer 2) 2 greetBack.observed
      greeting.address
    ∧ timeLimit greeting = none
    ∧ stillWorld.tokens.isCancelled callerContext.token = false
    ∧ greeting.body.length ≤ 2
    ∧ (Envelope.encode (stamped 1 callerContext (.ofRandom (stillWorld.random 16).1)
      greeting).envelope).length ≤ Envelope.maxSize 2)
  ∧ (send (Delivery.setting callerContext.token) none 0 (stillWorld, connectedWith 2 greetBack)
      stamping.roundTrip callerContext ⟨[2, 1]⟩ greeting).outcome
    = .done (.ok ⟨[0x68, 0x69, 0x21], .ofList [("to", "7")]⟩)
  := by
  have hstamped : ∀ fresh, stamped 1 callerContext fresh greeting
      = ⟨"a", none, [0x68, 0x69], .ofList [("a", "b"), (RequestId.header, "7")]⟩ := fun _ => rfl
  have hsize : ∀ fresh, (Envelope.encode
      (stamped 1 callerContext fresh greeting).envelope).length ≤ Envelope.maxSize 2 := by
    intro fresh
    rw [hstamped, Envelope.length_encode]
    decide
  have hbody : greeting.body.length ≤ 2 := Nat.le_refl 2
  have hconnects := connectedWith_connects 2 greetBack
  refine ⟨⟨hconnects, rfl, stillWorld_isCancelled, hbody, hsize _⟩, ?_⟩
  obtain ⟨called, u, -, hok, -⟩ := Delivery.send_transparent greetBack hconnects
    (show timeLimit greeting = none from rfl) stillWorld_isCancelled callerContext ⟨[2, 1]⟩ 0 hbody
    (hsize _)
  exact hok _ rfl

/-- The request of 65506 letters is within the limit, but not once it has been stamped: the
function is not called, and the caller gets the code 500. -/
theorem send_lettersRequest_refused :
  (connected.Connects stamping 1 bodiless 0 answerNothing.observed (lettersRequest 65506).address
    ∧ timeLimit (lettersRequest 65506) = none
    ∧ stillWorld.tokens.isCancelled callerContext.token = false
    ∧ (lettersRequest 65506).body.length ≤ 0
    ∧ (Envelope.encode (lettersRequest 65506).envelope).length ≤ Envelope.maxSize 0)
  ∧ (sendLetters 65506).state.1.sightings = []
  ∧ ∃ e, (sendLetters 65506).outcome = .done (.error e) ∧ e.streamCode? = some 500
  := by
  have hlimit : Envelope.maxSize 0 = 65506 + 30 := by decide
  have hfull := length_encode_lettersRequest 65506
  have hsize : ∀ fresh, Envelope.maxSize 0 < (Envelope.encode
      (stamped 1 callerContext fresh (lettersRequest 65506)).envelope).length := by
    intro fresh
    rw [hlimit, ← hfull]
    exact length_encode_lt_stamped (by decide) callerContext fresh rfl
  refine ⟨⟨connected_connects 65506, rfl, stillWorld_isCancelled, Nat.le_refl 0,
    Nat.le_of_eq (hfull.trans hlimit.symm)⟩, ?_⟩
  obtain ⟨hnotes, e, houtcome, hcode⟩ := Delivery.send_refused answerNothing.observed
    (connected_connects 65506) rfl stillWorld_isCancelled callerContext ⟨[2, 1]⟩ 0 (hsize _)
  exact ⟨World.sightings_congr hnotes, e, houtcome, hcode⟩

end StreamCall.Client
