import StreamCall.Proofs.Program
import StreamCall.Proofs.Stream.Input
import StreamCall.Server.Middleware

/-!
# What the usual chain does

The usual chain around a unary function is a program of a few parts (`chain_defaultChain`): it
takes in the request under the limit and judges it, calls the function in the course of the
request, responds, and reports a failure.  The limit, the span and the catching of panics are
worked out once here, for every kind of stream.
-/

namespace StreamCall

open Middleware

variable {ν α β : Type}

/-! ### Spans -/

/-- A program on the surroundings in the course of a request. -/
def spanned (id : RequestId) : Program (Ambient ν) α → Program (Ambient ν) α
  | .done a => .done a
  | .panic q => .panic q
  | .step (.log event) next =>
    .step (.log (event.within id)) fun (_ : Unit) => spanned id (next ())
  | .step op next => .step op fun answer => spanned id (next answer)

namespace Serving

theorem withSpan_bind (id : RequestId) (p : Serving ν α) (f : α → Serving ν β) :
  withSpan id (p.bind f) = (withSpan id p).bind fun a => withSpan id (f a)
  := by
  simp only [withSpan, Program.through_bind, Program.bind_assoc, Program.done_bind]

theorem withSpan_onSurroundings (id : RequestId) (p : Program (Ambient ν) α) :
  withSpan id (onSurroundings p) = onSurroundings (spanned id p)
  := by
  induction p with
  | done a => rfl
  | panic q => rfl
  | step op next ih =>
    cases op with
    | log event => exact Program.step_congr (S := Service ν) _ fun _ => ih ()
    | _ => exact Program.step_congr (S := Service ν) _ ih

theorem withSpan_onStream (id : RequestId) (p : Stream.Use α) :
  withSpan (ν := ν) id (onStream p) = onStream p
  := by
  induction p with
  | done a => rfl
  | panic q => rfl
  | step op next ih => exact Program.step_congr (S := Service ν) _ ih

/-! ### Layers -/

theorem withLayer_bind (layer : Layer) (p : Serving ν α) (f : α → Serving ν β) :
  withLayer layer (p.bind f) = (withLayer layer p).bind fun r => withLayer r.2 (f r.1)
  :=
  Program.through_bind _ p f layer

/-- A tee once a write has been answered. -/
def teeAfter (read written data : Bytes) : Except IoError Nat → Layer
  | .error _ => .tee read written
  | .ok taken => .tee read (written ++ data.take taken)

/-- Whether an operation does not read the stream. -/
def Unread : (Service ν).Op → Prop
  | .inr (.read _) => False
  | .inr (.drain _) => False
  | _ => True

theorem onSurroundings_uses (p : Program (Ambient ν) α) :
  (onSurroundings p).Uses Unread
  := by
  apply (Program.uses_inl p).mono
  rintro (op | op) h
  · trivial
  · cases h

theorem onStream_uses
    {p : Stream.Use α} (h : p.Uses fun op => Unread (ν := ν) (.inr op)) :
  (onStream p).Uses (Unread (ν := ν))
  := by
  apply h.inr.mono
  rintro _ ⟨op, rfl, hop⟩
  exact hop

/-- What does not read is done to the stream below as it is. -/
theorem on_of_unread (layer : Layer) {op : StreamOp} (h : Unread (ν := ν) (.inr op)) :
  ∃ left : op.Answer → Layer, layer.on op = .step op fun answer => .done (answer, left answer)
  := by
  cases layer with
  | limited limit remaining =>
    cases op with
    | read n => cases h
    | drain upTo => cases h
    | _ => exact ⟨fun _ => .limited limit remaining, rfl⟩
  | tee read written =>
    cases op with
    | read n => cases h
    | drain upTo => cases h
    | write data =>
      refine ⟨teeAfter read written data, ?_⟩
      apply Program.step_congr
      rintro (e | taken)
      · rfl
      · rfl
    | _ => exact ⟨fun _ => .tee read written, rfl⟩

/-- A program that does not read goes on as without the layer. -/
theorem withLayer_of_unread
    {p : Serving ν α} (h : p.Uses Unread) (layer : Layer) :
  ((withLayer layer p).bind fun r => .done r.1) = p
  := by
  induction p generalizing layer with
  | done a => rfl
  | panic q => rfl
  | step op next ih =>
    cases op with
    | inl op =>
      exact Program.step_congr (S := Service ν) _ fun answer => ih answer (h.2 answer) layer
    | inr op =>
      obtain ⟨left, hon⟩ := on_of_unread layer h.1
      have hstep : withLayer layer (.step (.inr op) next)
          = (onStream (layer.on op)).bind fun r => withLayer r.2 (next r.1) := rfl
      rw [hstep, hon]
      exact Program.step_congr (S := Service ν) _ fun answer => ih answer (h.2 answer) _

end Serving

/-! ### Writing -/

namespace Stream

theorem writeRest_noPanic (n : Nat) (data : Bytes) :
  (writeRest n data).NoPanic
  := by
  induction n generalizing data with
  | zero => cases data <;> trivial
  | succ n ih =>
    cases data with
    | nil => trivial
    | cons b rest =>
      rintro (e | taken)
      · trivial
      · dsimp only
        split
        · trivial
        · apply ih

theorem writeEnvelope_noPanic (envelope : Envelope) :
  (writeEnvelope envelope).NoPanic
  := by
  apply (writeRest_noPanic _ _).bind
  rintro (e | _)
  · trivial
  · rintro (e | _) <;> trivial

theorem writeRest_uses (n : Nat) (data : Bytes) :
  (writeRest n data).Uses fun op => Serving.Unread (ν := ν) (.inr op)
  := by
  induction n generalizing data with
  | zero => cases data <;> trivial
  | succ n ih =>
    cases data with
    | nil => trivial
    | cons b rest =>
      refine ⟨trivial, ?_⟩
      rintro (e | taken)
      · trivial
      · dsimp only
        split
        · trivial
        · apply ih

theorem writeEnvelope_uses (envelope : Envelope) :
  (writeEnvelope envelope).Uses fun op => Serving.Unread (ν := ν) (.inr op)
  := by
  apply (writeRest_uses _ _).bind
  rintro (e | _)
  · trivial
  · refine ⟨trivial, ?_⟩
    rintro (e | _) <;> trivial

end Stream

/-! ### The parts of the chain -/

/-- Answers with what the function made of the request. -/
def respond : Except Payload (Except HandlerError Response) →
    Serving ν (Except HandlerError Unit)
  | .error q => Serving.fail (.ofPanic q)
  | .ok (.error e) => Serving.fail e
  | .ok (.ok response) =>
    (Serving.onStream (Stream.writeEnvelope response.envelope)).bind fun
      | .error e => Serving.fail (.classify (.envelope e))
      | .ok _ => .done (.ok ())

/-- Finds the id of an admitted request and calls the function in its course. -/
def calling (f : Unary ν) (ctx : Context) (request : Request) :
    Program (Ambient ν) (Except Payload (Except HandlerError Response)) :=
  (requestIdOf request).bind fun id => spanned id (f (ctx.withRequestId id) request).attempt

/-- Calls the function for an admitted request and responds. -/
def answerRequest (f : Unary ν) (ctx : Context) (request : Request) :
    Serving ν (Except HandlerError Unit) :=
  (Serving.onSurroundings (calling f ctx request)).bind respond

/-- Goes on with an admitted request. -/
def admitted (f : Unary ν) (ctx : Context) (request : Request) :
    Serving ν (Except HandlerError Unit) :=
  Serving.streamId.bind fun stream =>
    (Serving.log (decodedEvent request stream)).bind fun _ =>
      answerRequest f (ctx.withRequest request) request

/-- What the input is judged to be, once it has been read. -/
def verdict (max : Nat) (d : Drained) : Except EnvelopeError Envelope :=
  match d.ending with
  | .failed e => .error (.read e)
  | _ =>
    match Envelope.decode .request d.data with
    | .error e => .error (.decodeRequest e)
    | .ok envelope =>
      if max < envelope.body.length then .error (.bodyTooLarge envelope.body.length max)
      else .ok envelope

/-- Too long input is judged by its length alone. -/
theorem verdict_of_long {limit : Nat} {input : Bytes} (h : limit < input.length) (max : Nat) :
  verdict max (underLimit limit limit input) = .error (.read (Layer.limitError limit))
  := by
  rw [underLimit, if_neg (by omega), verdict]

/-- Other input is judged by what it decodes to, and that by the length of its body. -/
theorem verdict_of_short {limit : Nat} {input : Bytes} (h : input.length ≤ limit) (max : Nat) :
  verdict max (underLimit limit limit input)
    = match Envelope.decode .request input with
      | .error e => .error (.decodeRequest e)
      | .ok envelope =>
        if max < envelope.body.length then .error (.bodyTooLarge envelope.body.length max)
        else .ok envelope
  := by
  rw [underLimit, if_pos h, verdict]

/-- Reads all of the input under a limit. -/
def intake (limit : Nat) : Stream.Use Drained :=
  (readAllUnder (.limit limit)).bind fun r => .done r.1

/-- Goes on with what the input is judged to be. -/
def serveVerdict (f : Unary ν) (ctx : Context) :
    Except EnvelopeError Envelope → Serving ν (Except HandlerError Unit)
  | .error e => Serving.fail (.classify (.envelope e))
  | .ok envelope => admitted f ctx envelope.request

/-- Reports a failure. -/
def report (stream : Nat) : Except HandlerError Unit → Serving ν (Except HandlerError Unit)
  | .ok _ => .done (.ok ())
  | .error e =>
    (Serving.log (failureEvent e stream)).bind fun _ =>
      (Serving.onStream (Stream.ask (.cancelWrite e.wireCode))).bind fun _ => Serving.fail e

theorem chain_cons (m : Middleware ν) (ms : List (Middleware ν)) (handler : Handler ν) :
  chain (m :: ms) handler = m (chain ms handler)
  :=
  rfl

theorem chain_nil (handler : Handler ν) :
  chain [] handler = handler
  :=
  rfl

/-- The function is called in the course of its request, and its panics are caught. -/
theorem attachRequestId_recovery_unary
    (f : Unary ν) (ctx : Context) {request : Request} (h : ctx.request = some request) :
  attachRequestId (recovery (unary f)) ctx = answerRequest f ctx request
  := by
  rw [attachRequestId, h, answerRequest, calling, Serving.onSurroundings, Program.inl_bind,
    Program.bind_assoc]
  apply Program.bind_congr
  intro id
  have hrequest : (ctx.withRequestId id).request = some request := h
  rw [recovery, unary, hrequest]
  dsimp only
  rw [Program.recover_bind, Serving.onSurroundings, Program.attempt_inl, Serving.withSpan_bind,
    ← Serving.onSurroundings, Serving.withSpan_onSurroundings]
  apply Program.bind_congr
  rintro (q | e | response)
  · rfl
  · rfl
  · dsimp only
    rw [Program.NoPanic.recover, Serving.withSpan_bind, Serving.withSpan_onStream]
    · apply Program.bind_congr
      rintro (e | _)
      · rfl
      · rfl
    · apply (Stream.writeEnvelope_noPanic _).inr.bind
      rintro (e | _)
      · trivial
      · trivial

theorem readEnvelope_request :
  Stream.readEnvelope .request = readAll.bind fun d =>
    match d.ending with
    | .failed e => .done (.error (.read e))
    | _ =>
      match Envelope.decode .request d.data with
      | .ok envelope => .done (.ok envelope)
      | .error e => .done (.error (.decodeRequest e))
  := by
  apply Program.step_congr
  rintro ⟨data, ending⟩
  cases ending with
  | finished | full =>
    cases hdecode : Envelope.decode .request data <;>
      simp only [Program.bind, hdecode]
  | failed e => rfl

/-- What is left of the chain once the input has been read makes one judgement of it. -/
theorem decodeRequest_attachRequestId
    (f : Unary ν) (ctx : Context) {max : Nat} (h : ctx.bodyLimit = some max) :
  decodeRequest (attachRequestId (recovery (unary f))) ctx
    = (Serving.onStream readAll).bind fun d => serveVerdict f ctx (verdict max d)
  := by
  rw [decodeRequest, readEnvelope_request, Serving.onStream, Program.inr_bind, Program.bind_assoc]
  apply Program.bind_congr
  rintro ⟨data, ending⟩
  cases ending with
  | failed e => rfl
  | finished | full =>
    dsimp only [verdict]
    cases Envelope.decode .request data with
    | error e => rfl
    | ok envelope =>
      dsimp only [Program.inr, Program.bind]
      by_cases hlt : max < envelope.body.length
      · have hfilter : (ctx.bodyLimit.filter (· < envelope.request.body.length)) = some max := by
          rw [h, Option.filter_some_pos]
          exact decide_eq_true hlt
        rw [hfilter, if_pos hlt]
        rfl
      · have hfilter : (ctx.bodyLimit.filter (· < envelope.request.body.length)) = none := by
          rw [h, Option.filter_some_neg]
          exact decide_eq_false hlt
        rw [hfilter, if_neg hlt]
        apply Program.bind_congr
        intro stream
        apply Program.bind_congr
        intro _
        exact attachRequestId_recovery_unary f _ rfl

theorem respond_uses (answer : Except Payload (Except HandlerError Response)) :
  (respond (ν := ν) answer).Uses Serving.Unread
  := by
  obtain q | e | response := answer
  · trivial
  · trivial
  · apply (Serving.onStream_uses (Stream.writeEnvelope_uses _)).bind
    rintro (e | _)
    · trivial
    · trivial

/-- Nothing reads the stream once a request has been admitted. -/
theorem admitted_uses (f : Unary ν) (ctx : Context) (request : Request) :
  (admitted f ctx request).Uses Serving.Unread
  := by
  apply Program.Uses.bind
  · exact ⟨trivial, fun _ => trivial⟩
  intro stream
  apply Program.Uses.bind
  · exact ⟨trivial, fun _ => trivial⟩
  intro _
  exact (Serving.onSurroundings_uses _).bind respond_uses

/-- The usual chain around a unary function. -/
theorem chain_defaultChain (f : Unary ν) (max : Nat) (ctx : Context) :
  chain (defaultChain max) (unary f) ctx
    = Serving.streamId.bind fun stream =>
      ((Serving.onStream (intake (Envelope.maxSize max))).bind fun d =>
        serveVerdict f (ctx.withBodyLimit max) (verdict max d)).bind (report stream)
  := by
  have huses : ∀ v, (serveVerdict f (ctx.withBodyLimit max) v).Uses Serving.Unread := by
    rintro (e | envelope)
    · trivial
    · apply admitted_uses
  have hread : ∀ layer, Serving.withLayer (ν := ν) layer (Serving.onStream readAll)
      = Serving.onStream (readAllUnder layer) := fun layer => Program.bind_done _
  rw [defaultChain, chain_cons, chain_cons, chain_cons, chain_cons, chain_cons, chain_nil,
    errorHandler]
  apply Program.bind_congr
  intro stream
  rw [maxBody, decodeRequest_attachRequestId f (ctx.withBodyLimit max) rfl, Serving.withLayer_bind,
    hread, Program.bind_assoc]
  generalize Envelope.maxSize max = limit
  rw [intake, Serving.onStream, Serving.onStream, Program.inr_bind, Program.bind_assoc,
    Program.bind_assoc, Program.bind_assoc]
  apply Program.bind_congr
  intro r
  rw [← Program.bind_assoc, Serving.withLayer_of_unread (huses _) r.2]
  rfl

end StreamCall
