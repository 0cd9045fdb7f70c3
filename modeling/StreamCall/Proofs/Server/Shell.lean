import StreamCall.Proofs.Server.Accepted
import StreamCall.Proofs.Server.Standard
import StreamCall.Proofs.Server.Traffic

/-!
# Callers and settings

The middlewares that come with a server know the handler they are put around only by calling it
(`Standard.caller_middleware`).

Streams in memory and streams of a connection, each with its surroundings, are settings
(`run_memory`, `run_wire`).
-/

namespace StreamCall

open Middleware

variable {ν α β σ : Type}

/-! ### Covers -/

namespace Cover

/-- Nothing lies between the handler and the service. -/
def clear : Cover ν Unit :=
  { number := id
    spans := []
    meaning := fun s op => .step op fun answer => .done (some answer, s) }

/-- The handler is called in the course of a request. -/
def span (id : RequestId) : Cover ν Unit :=
  { clear with spans := [id] }

/-- A layer lies on the stream. -/
def layer : Cover ν Layer :=
  { number := id
    spans := []
    meaning := fun layer op =>
      (Serving.underLayer layer op).bind fun r => .done (some r.1, r.2) }

/-- Whether a cover answers every operation, and does so as a meaning of the operations says. -/
def Answers (cover : Cover ν σ)
    (meaning : σ → (op : (Service ν).Op) → Serving ν ((Service ν).Answer op × σ)) : Prop :=
  ∀ s op, cover.on s op = (meaning s op).bind fun r => .done (some r.1, r.2)

theorem clear_answers :
  (clear (ν := ν)).Answers fun s op => .step op fun answer => .done (answer, s)
  := by
  intro s op
  obtain op | op := op
  · cases op <;> rfl
  · cases op <;> rfl

theorem span_answers (id : RequestId) :
  (span (ν := ν) id).Answers (Serving.underSpan id)
  := by
  intro s op
  obtain op | op := op
  · cases op <;> rfl
  · cases op <;> rfl

theorem layer_answers :
  (layer (ν := ν)).Answers Serving.underLayer
  := by
  intro s op
  obtain op | op := op
  · cases op <;> rfl
  · cases op with
    | id => cases s <;> rfl
    | _ => rfl

end Cover

/-! ### Shells -/

namespace Shell

/-- A program that calls no handler. -/
def ofServing : Serving ν α → Shell ν α
  | .done a => .done a
  | .panic q => .panic q
  | .step op next => .step op fun answer => ofServing (next answer)

/-- Goes on with the result of a shell. -/
def bind (shell : Shell ν α) (f : α → Shell ν β) : Shell ν β :=
  match shell with
  | .done a => f a
  | .panic q => .panic q
  | .step op next => .step op fun answer => (next answer).bind f
  | .call ctx cover s next => .call ctx cover s fun outcome s => (next outcome s).bind f

/-- What a caller does that goes on with the result of a call and lets panics pass. -/
def resume (f : Except HandlerError Unit → σ → Shell ν α) :
    Outcome (Except HandlerError Unit) → σ → Shell ν α
  | .done result, s => f result s
  | .panicked q, _ => .panic q
  | .waiting, _ => .panic default

variable (handler : Handler ν)

theorem fill_ofServing (p : Serving ν α) :
  (ofServing p).fill handler = p
  := by
  induction p with
  | done a => rfl
  | panic q => rfl
  | step op next ih => exact congrArg (Program.step op) (funext ih)

theorem fill_bind (shell : Shell ν α) (f : α → Shell ν β) :
  (shell.bind f).fill handler = (shell.fill handler).bind fun a => (f a).fill handler
  := by
  induction shell with
  | done a => rfl
  | panic q => rfl
  | step op next ih => exact congrArg (Program.step op) (funext ih)
  | call ctx cover s next ih =>
    have hcall : ((call ctx cover s next).bind f).fill handler
        = (Program.enclose cover.on s (handler ctx)).bind fun r =>
          ((next r.1 r.2).bind f).fill handler := rfl
    simp only [hcall, ih, fill, Program.bind_assoc]

/-- A handler that is called under a cover that answers runs as the meaning says. -/
theorem fill_call_resume
    {cover : Cover ν σ}
    {meaning : σ → (op : (Service ν).Op) → Serving ν ((Service ν).Answer op × σ)}
    (h : cover.Answers meaning) (ctx : Context) (s : σ)
    (f : Except HandlerError Unit → σ → Shell ν α) :
  (call ctx cover s (resume f)).fill handler
    = (Program.through meaning s (handler ctx)).bind fun r => (f r.1 r.2).fill handler
  := by
  rw [fill]
  generalize handler ctx = p
  induction p generalizing s with
  | done result => rfl
  | panic q => rfl
  | step op next ih =>
    rw [Program.enclose, Program.through, h, Program.bind_assoc, Program.bind_assoc,
      Program.bind_assoc]
    apply Program.bind_congr
    exact fun r => ih r.1 r.2

/-- The same under a clear cover. -/
theorem fill_call_clear (ctx : Context) (f : Except HandlerError Unit → Shell ν α) :
  (call ctx .clear () (resume fun result _ => f result)).fill handler
    = (handler ctx).bind fun result => (f result).fill handler
  := by
  rw [fill_call_resume handler Cover.clear_answers]
  generalize handler ctx = p
  induction p with
  | done result => rfl
  | panic q => rfl
  | step op next ih => exact congrArg (Program.step op) (funext ih)

end Shell

/-! ### The standard middlewares -/

namespace Middleware.Standard

open Shell

/-- What `recovery` makes of the end of a call. -/
def recoveryEnd : Outcome (Except HandlerError Unit) → Shell ν (Except HandlerError Unit)
  | .done result => .done result
  | .panicked q => .done (.error (.ofPanic q))
  | .waiting => .panic default

/-- What a standard middleware does, given a handler to call. -/
def caller : Standard → Caller ν
  | .errorHandler => fun ctx =>
    (ofServing Serving.streamId).bind fun stream =>
      .call ctx .clear () (resume fun result _ => ofServing (report stream result))
  | .maxBody limit => fun ctx =>
    .call (ctx.withBodyLimit limit) .layer (.limit (Envelope.maxSize limit))
      (resume fun result _ => .done result)
  | .decodeRequest => fun ctx =>
    (ofServing (Serving.onStream (Stream.readEnvelope .request))).bind fun
      | .error e => .done (.error (.classify (.envelope e)))
      | .ok envelope =>
        let size := envelope.request.body.length
        match ctx.bodyLimit.filter (· < size) with
        | some limit => .done (.error (.classify (.envelope (.bodyTooLarge size limit))))
        | none =>
          (ofServing Serving.streamId).bind fun stream =>
            (ofServing (Serving.log (decodedEvent envelope.request stream))).bind fun _ =>
              .call (ctx.withRequest envelope.request) .clear ()
                (resume fun result _ => .done result)
  | .attachRequestId => fun ctx =>
    match ctx.request with
    | none => .done (.error missingRequest)
    | some request =>
      (ofServing (Serving.onSurroundings (requestIdOf request))).bind fun id =>
        .call (ctx.withRequestId id) (.span id) () (resume fun result _ => .done result)
  | .recovery => fun ctx =>
    .call ctx .clear () fun outcome _ => recoveryEnd outcome
  | .logTraffic config => fun ctx =>
    .call ctx .layer .fresh
      (resume fun result layer => ofServing (logPassage config (result, layer)))

/-- A standard middleware only calls the handler it is put around. -/
theorem caller_middleware (part : Standard) :
  part.caller.middleware (ν := ν) = part.middleware
  := by
  funext next ctx
  cases part with
  | errorHandler =>
    apply (fill_bind next _ _).trans
    rw [fill_ofServing]
    apply Program.bind_congr
    intro stream
    apply (fill_call_clear next ctx _).trans
    apply Program.bind_congr
    intro result
    rw [fill_ofServing]
    rfl
  | maxBody limit => exact fill_call_resume next Cover.layer_answers _ _ _
  | decodeRequest =>
    apply (fill_bind next _ _).trans
    rw [fill_ofServing]
    apply Program.bind_congr
    rintro (e | envelope)
    · rfl
    · dsimp only
      cases ctx.bodyLimit.filter (· < envelope.request.body.length) with
      | some limit => rfl
      | none =>
        apply (fill_bind next _ _).trans
        rw [fill_ofServing]
        apply Program.bind_congr
        intro stream
        apply (fill_bind next _ _).trans
        rw [fill_ofServing]
        apply Program.bind_congr
        intro _
        apply (fill_call_clear next _ _).trans
        exact Program.bind_done _
  | attachRequestId =>
    have hcaller : (attachRequestId.caller.middleware (ν := ν)) next ctx
        = (attachRequestId.caller ctx).fill next := rfl
    rw [hcaller, caller, middleware, Middleware.attachRequestId]
    dsimp only
    cases ctx.request with
    | none => rfl
    | some request =>
      apply (fill_bind next _ _).trans
      rw [fill_ofServing]
      apply Program.bind_congr
      intro id
      exact fill_call_resume next (Cover.span_answers id) _ _ _
  | recovery =>
    have hcall : ∀ p : Serving ν (Except HandlerError Unit),
        ((Program.enclose Cover.clear.on () p).bind fun r =>
          (recoveryEnd r.1).fill next)
        = p.recover fun payload => Serving.fail (.ofPanic payload) := by
      intro p
      induction p with
      | done result => rfl
      | panic q => rfl
      | step op next ih =>
        rw [Program.enclose, Cover.clear_answers]
        exact Program.step_congr op ih
    exact hcall (next ctx)
  | logTraffic config =>
    apply (fill_call_resume next Cover.layer_answers _ _ _).trans
    simp only [fill_ofServing]
    exact (logTraffic_eq next ctx).symm

end Middleware.Standard

/-! ### Settings -/

theorem WireStream.run_meaning_inr_waiting
    {s : WireStream} {w : World ν} {op : StreamOp} (h : s.answer? w.clock op = none) :
  (s.meaning (ν := ν) (.inr op)).run World.answer w = (.waiting, w)
  := by
  have hnow : w.answer .now = some (w.clock, w) := rfl
  apply (Program.run_step (S := Ambient ν) hnow _).trans
  dsimp only
  rw [h]
  rfl

/-- The stage that is meant when its events and notes are kept beside it. -/
def Scene.stage (t : Scene ν (Stage ν)) : Stage ν :=
  { t.state with world := { t.state.world with events := t.events, notes := t.notes } }

/-- The world that is meant when its events and notes are kept beside it. -/
def Scene.world (t : Scene ν (World ν × WireStream)) : World ν :=
  { t.state.1 with events := t.events, notes := t.notes }

namespace Setting

/-- A stream in memory in a world. -/
def memory : Setting ν (Stage ν) :=
  { number := fun s => s.stream.id, answer := Stage.answer }

/-- Answers an operation on a stream of a connection in a world. -/
def answerWire (s : World ν × WireStream) :
    (op : (Service ν).Op) → Option ((Service ν).Answer op × World ν × WireStream)
  | .inl op => (s.1.answer op).map fun r => (r.1, r.2, s.2)
  | .inr op => (s.2.answer? s.1.clock op).map fun r => (r.1, s.1, r.2)

/-- A stream of a connection in a world. -/
def wire : Setting ν (World ν × WireStream) :=
  { number := fun s => s.2.id, answer := answerWire }

/-- To run a program on a stage is to run it in this setting. -/
theorem run_memory (t : Scene ν (Stage ν)) (p : Serving ν α) :
  t.stage.run p = ((memory.run t p).1, (memory.run t p).2.stage)
  := by
  induction p generalizing t with
  | done a => rfl
  | panic q => rfl
  | step op next ih =>
    cases op with
    | inl op =>
      cases op with
      | log event => exact ih () { t with events := t.events ++ [event] }
      | note note => exact ih () { t with notes := t.notes ++ [note] }
      | random n =>
        exact ih _ { t with state := { t.state with world := (t.state.world.random n).2 } }
      | now | isCancelled => exact ih _ t
      | cancel token =>
        exact ih () { t with state := { t.state with
          world := { t.state.world with tokens := t.state.world.tokens.cancel token } } }
      | branch token =>
        exact ih _ { t with state := { t.state with
          world := { t.state.world with tokens := (t.state.world.tokens.child token).2 } } }
      | pause | hang => rfl
    | inr op =>
      let r := t.state.stream.answer op
      let u : Scene ν (Stage ν) := { t with state := { t.state with stream := r.2 } }
      have hreply : memory.reply t (.inr op) = some (r.1, u) := by
        cases op <;> rfl
      have hrun : memory.run t (.step (.inr op) next) = memory.run u (next r.1) :=
        Program.run_step (S := Service ν) hreply next
      rw [hrun]
      exact ih r.1 u

/-- To settle a program on a stream of a connection is to run it in this setting. -/
theorem run_wire (t : Scene ν (World ν × WireStream)) (p : Serving ν α) :
  t.state.2.settled t.world p
    = ((wire.run t p).1.caught.map fun a => (a, (wire.run t p).2.state.2),
      (wire.run t p).2.world)
  := by
  induction p generalizing t with
  | done a => rfl
  | panic q => rfl
  | step op next ih =>
    cases op with
    | inl op =>
      cases op with
      | log event => exact ih () { t with events := t.events ++ [event] }
      | note note => exact ih () { t with notes := t.notes ++ [note] }
      | random n => exact ih _ { t with state := ((t.state.1.random n).2, t.state.2) }
      | now | isCancelled => exact ih _ t
      | cancel token =>
        exact ih () { t with state :=
          ({ t.state.1 with tokens := t.state.1.tokens.cancel token }, t.state.2) }
      | branch token =>
        exact ih _ { t with state :=
          ({ t.state.1 with tokens := (t.state.1.tokens.child token).2 }, t.state.2) }
      | pause | hang => rfl
    | inr op =>
      have hsettled : t.state.2.settled t.world (.step (.inr op) next)
          = ((t.state.2.meaning (.inr op)).bind fun r =>
            Program.settle WireStream.meaning r.2 (next r.1)).run World.answer t.world := rfl
      have hreply : wire.reply t (.inr op) = (t.state.2.answer? t.world.clock op).map fun r =>
          (r.1, { t with state := (t.state.1, r.2) }) := by
        have hmap : ∀ x : Option (op.Answer × WireStream),
            ((x.map fun r => (r.1, t.state.1, r.2)).map fun r => (r.1, { t with state := r.2 }))
              = x.map fun r => (r.1, { t with state := (t.state.1, r.2) }) := by
          intro x
          rw [Option.map_map]
          rfl
        cases op with
        | id => rfl
        | _ => exact hmap (t.state.2.answer? t.state.1.clock _)
      rw [hsettled, Program.run_bind]
      cases h : t.state.2.answer? t.world.clock op with
      | none =>
        rw [h] at hreply
        have hrun : wire.run t (.step (.inr op) next) = (.waiting, t) :=
          Program.run_step_waiting (S := Service ν) hreply next
        rw [WireStream.run_meaning_inr_waiting h, hrun]
        rfl
      | some r =>
        rw [h] at hreply
        have hrun : wire.run t (.step (.inr op) next)
            = wire.run { t with state := (t.state.1, r.2) } (next r.1) :=
          Program.run_step (S := Service ν) hreply next
        rw [WireStream.run_meaning_inr h, hrun]
        exact ih r.1 { t with state := (t.state.1, r.2) }

end Setting

end StreamCall
