import StreamCall.Client.Line
import StreamCall.Client.Plan
import StreamCall.Proofs.Client.Cancellation
import StreamCall.Proofs.Nesting
import StreamCall.Proofs.Server.Failure
import StreamCall.Proofs.Server.Shell
import StreamCall.Server.Plan

/-!
# The order of middlewares

The middlewares of a server and of a client are put around one another in the order in which they
were chosen, the first outermost, and so they record (`middlewares_nest_as_chosen`).  The
middlewares that come with a server leave no notes (`Standard.records`), and neither does the one
that comes with a client (`Client.injectRequestId_records`); any of them can be made to record by
`recorded`.
-/

namespace StreamCall

variable {ν α : Type}

/-! ### Choices -/

/-- When every choice adds some items behind those that are there, all choices add theirs in their
order. -/
theorem items_foldl_choose
    {π κ μ : Type} {choose : π → κ → π} {items : π → List μ} {given : κ → List μ}
    (h : ∀ p choice, items (choose p choice) = items p ++ given choice) (p : π) (choices : List κ) :
  items (choices.foldl choose p) = items p ++ choices.flatMap given
  := by
  induction choices generalizing p with
  | nil => exact (List.append_nil _).symm
  | cons choice choices ih =>
    rw [List.foldl_cons, ih, h, List.append_assoc, List.flatMap_cons]

namespace Server

/-- The middlewares that a choice adds. -/
def Choice.given : Choice ν → List (Middleware ν)
  | .middleware m => [m]
  | .middlewares ms => ms
  | .defaultChain limit => Middleware.defaultChain limit
  | _ => []

namespace Plan

theorem middlewares_choose (p : Plan ν) (choice : Choice ν) :
  (p.choose choice).middlewares = p.middlewares ++ choice.given
  := by
  cases choice with
  | middleware | middlewares | defaultChain => rfl
  | _ => exact (List.append_nil _).symm

/-- What is installed for a handler, when some choices have been made. -/
theorem wrap_ofChoices (choices : List (Choice ν)) (handler : Handler ν) :
  (ofChoices choices).wrap handler = chain (choices.flatMap Choice.given) handler
  := by
  rw [wrap, ofChoices, items_foldl_choose middlewares_choose, blank, List.nil_append]

end Plan

end Server

namespace Client

/-- The middlewares that a choice adds. -/
def Choice.given : Choice ν → List (Middleware ν)
  | .middleware m => [m]
  | .middlewares ms => ms
  | _ => []

namespace Plan

theorem middlewares_choose (p : Plan ν) (choice : Choice ν) :
  (p.choose choice).middlewares = p.middlewares ++ choice.given
  := by
  cases choice with
  | middleware | middlewares => rfl
  | _ => exact (List.append_nil _).symm

/-- The round trip of a client, when some choices have been made. -/
theorem roundTrip_ofChoices (choices : List (Choice ν)) :
  (ofChoices choices).roundTrip
    = chain (choices.flatMap Choice.given) (physical (ofChoices choices).settings.readBuffer)
  := by
  rw [roundTrip, ofChoices, items_foldl_choose middlewares_choose, blank, List.nil_append]

end Plan

end Client

/-- How things that are put around something are composed: the first one outermost. -/
structure Composes {γ : Type} (compose : List (γ → γ) → γ → γ) : Prop where
  nil (inner : γ) : compose [] inner = inner
  cons (outer : γ → γ) (others : List (γ → γ)) (inner : γ) :
    compose (outer :: others) inner = outer (compose others inner)
  /-- A list in two parts may be put around in two stages. -/
  append (outer others : List (γ → γ)) (inner : γ) :
    compose (outer ++ others) inner = compose outer (compose others inner)
  /-- The last one is put around first. -/
  reverse (all : List (γ → γ)) (inner : γ) :
    compose all inner = all.reverse.foldl (fun next outer => outer next) inner

theorem composes_foldr {γ : Type} :
  Composes (γ := γ) fun all inner => all.foldr (fun outer next => outer next) inner
  where
  nil _ := rfl
  cons _ _ _ := rfl
  append _ _ _ := List.foldr_append
  reverse _ _ := List.foldl_reverse.symm

/-! ### Middlewares that leave no notes -/

theorem silent_of_noteless {op : (Service ν).Op} (h : Noteless op) :
  Program.Unnoted (T := Streaming) op
  := by
  obtain (_ | note | _ | _ | _ | _ | _ | _ | _) | _ := op
  case inl.note => exact h.elim
  all_goals rfl

theorem onStream_silent (p : Stream.Use α) :
  (Serving.onStream (ν := ν) p).Uses (Program.Unnoted (T := Streaming))
  :=
  (Stage.onStream_noteless p).mono fun _ => silent_of_noteless

/-- An operation under a layer notes what it notes. -/
theorem traces_underLayer
    (layer : Layer) (op : (Service ν).Op) {notes : List ν}
    {ending : Except Payload ((Service ν).Answer op × Layer)}
    (h : (Serving.underLayer layer op).Traces (T := Streaming) notes ending) :
  notes = notesOf (T := Streaming) op ∧ ∃ r, ending = .ok r
  := by
  cases op with
  | inl op =>
    cases h with
    | step answer h =>
      cases h
      exact ⟨List.append_nil _, _, rfl⟩
  | inr op =>
    have hsafe : (Serving.onStream (ν := ν) (layer.on op)).Safe fun _ => True :=
      (layer.on_safe (fun _ => trivial) (fun _ => trivial) trivial).inr
    exact ⟨h.notes_eq_nil (onStream_silent _), h.exists_ok hsafe⟩

/-- So does one in the course of a request. -/
theorem traces_underSpan
    (id : RequestId) (s : Unit) (op : (Service ν).Op) {notes : List ν}
    {ending : Except Payload ((Service ν).Answer op × Unit)}
    (h : (Serving.underSpan id s op).Traces (T := Streaming) notes ending) :
  notes = notesOf (T := Streaming) op ∧ ∃ r, ending = .ok r
  := by
  obtain (_ | note | _ | _ | _ | _ | _ | _ | _) | op := op
  all_goals
    cases h with
    | step answer h =>
      cases h
      exact ⟨List.append_nil _, _, rfl⟩

/-- What only passes a result on leaves a success alone. -/
theorem traces_fst
    {σ : Type} (r : Except HandlerError Unit × σ) {notes : List ν}
    {ending : Except Payload (Except HandlerError Unit)}
    (h : Program.Traces (T := Streaming) (.done r.1) notes ending) :
  notes = [] ∧ succeeded ending = succeeded (.ok r.1)
  := by
  cases h
  exact ⟨rfl, rfl⟩

/-- What only fails is no success. -/
theorem traces_fail
    {e : HandlerError} {notes : List ν} {ending : Except Payload (Except HandlerError Unit)}
    (h : (Serving.fail e).Traces (T := Streaming) notes ending) :
  notes = [] ∧ succeeded ending = false
  := by
  cases h
  exact ⟨rfl, rfl⟩

/-- A report leaves a success alone. -/
theorem traces_report
    (stream : Nat) (result : Except HandlerError Unit) {notes : List ν}
    {ending : Except Payload (Except HandlerError Unit)}
    (h : (report stream result).Traces (T := Streaming) notes ending) :
  notes = [] ∧ succeeded ending = succeeded (.ok result)
  := by
  cases result with
  | ok _ =>
    cases h
    exact ⟨rfl, rfl⟩
  | error e =>
    cases h with
    | step _ h =>
      cases h with
      | step _ h =>
        cases h
        exact ⟨rfl, rfl⟩

theorem traces_logAll
    {events : List Event} {p : Serving ν α} {notes : List ν} {ending : Except Payload α}
    (h : (logAll events p).Traces (T := Streaming) notes ending) :
  p.Traces (T := Streaming) notes ending
  := by
  induction events generalizing notes with
  | nil => exact h
  | cons event events ih =>
    cases h with
    | step _ h => exact ih h

/-- What has passed is logged, and a success left alone. -/
theorem traces_logPassage
    (config : Middleware.LogConfig) (r : Except HandlerError Unit × Layer) {notes : List ν}
    {ending : Except Payload (Except HandlerError Unit)}
    (h : (logPassage config r).Traces (T := Streaming) notes ending) :
  notes = [] ∧ succeeded ending = succeeded (.ok r.1)
  := by
  obtain ⟨e | _, layer⟩ := r
  · exact traces_fst (Except.error e, layer) h
  · cases layer with
    | limited limit remaining => exact traces_fst (Except.ok (), Layer.limited limit remaining) h
    | tee read written =>
      cases h with
      | step _ h =>
        cases traces_logAll h
        exact ⟨rfl, rfl⟩

namespace Middleware

/-- What `decodeRequest` does before it calls the handler, if it does. -/
def vet (ctx : Context) : Serving ν (Except (Except HandlerError Unit) Context) :=
  (Serving.onStream (Stream.readEnvelope .request)).bind fun
    | .error e => .done (.error (.error (.classify (.envelope e))))
    | .ok envelope =>
      let size := envelope.request.body.length
      match ctx.bodyLimit.filter (· < size) with
      | some limit => .done (.error (.error (.classify (.envelope (.bodyTooLarge size limit)))))
      | none =>
        Serving.streamId.bind fun stream =>
          (Serving.log (decodedEvent envelope.request stream)).bind fun _ =>
            .done (.ok (ctx.withRequest envelope.request))

theorem decodeRequest_eq (next : Handler ν) (ctx : Context) :
  decodeRequest next ctx = (vet ctx).bind (proceed next)
  := by
  rw [vet, Program.bind_assoc]
  apply Program.bind_congr
  rintro (e | envelope)
  · rfl
  · dsimp only
    cases ctx.bodyLimit.filter (· < envelope.request.body.length) with
    | some limit => rfl
    | none => rfl

theorem vet_silent (ctx : Context) :
  (vet (ν := ν) ctx).Uses (Program.Unnoted (T := Streaming))
  := by
  apply (onStream_silent _).bind
  rintro (e | envelope)
  · trivial
  · dsimp only
    cases ctx.bodyLimit.filter (· < envelope.request.body.length) with
    | some limit => trivial
    | none => exact ⟨rfl, fun _ => ⟨rfl, fun _ => trivial⟩⟩

/-- What `attachRequestId` does before it calls the handler, if it does. -/
def identify (ctx : Context) :
    Serving ν (Except (Except HandlerError Unit) (RequestId × Context)) :=
  match ctx.request with
  | none => .done (.error (.error missingRequest))
  | some request =>
    (Serving.onSurroundings (requestIdOf request)).bind fun id =>
      .done (.ok (id, ctx.withRequestId id))

theorem attachRequestId_eq (next : Handler ν) (ctx : Context) :
  attachRequestId next ctx
    = (identify ctx).bind (proceed fun called => Serving.withSpan called.1 (next called.2))
  := by
  rw [attachRequestId, identify]
  cases ctx.request with
  | none => rfl
  | some request =>
    apply Eq.trans _ (Program.bind_assoc _ _ _).symm
    rfl

theorem identify_silent (ctx : Context) :
  (identify (ν := ν) ctx).Uses (Program.Unnoted (T := Streaming))
  := by
  rw [identify]
  cases ctx.request with
  | none => trivial
  | some request =>
    have hid : (Serving.onSurroundings (requestIdOf (ν := ν) request)).Safe
        (Program.Unnoted (T := Streaming)) := requestIdOf_safe (fun _ => rfl) request
    exact hid.uses.bind fun _ => trivial

namespace Standard

/-- The middlewares that come with a server leave no notes. -/
theorem records (part : Standard) :
  Records (T := Streaming) (part.middleware (ν := ν)) [] []
  := by
  cases part with
  | errorHandler =>
    exact .of_gate (fun ctx => Serving.streamId.bind fun stream => .done (.ok (stream, ctx)))
      (fun g p => p.bind (report g.1)) Prod.snd (fun _ => ⟨rfl, fun _ => trivial⟩)
      (fun g => .bind (traces_report g.1)) fun _ _ => rfl
  | maxBody limit =>
    exact .of_gate (fun ctx => .done (.ok ctx))
      (fun _ p => (Serving.withLayer (.limit (Envelope.maxSize limit)) p).bind fun r => .done r.1)
      (fun ctx => ctx.withBodyLimit limit) (fun _ => trivial)
      (fun _ => .through traces_underLayer traces_fst _) fun _ _ => rfl
  | decodeRequest =>
    exact .of_gate vet (fun _ p => p) (fun ctx => ctx) vet_silent (fun _ => .id)
      decodeRequest_eq
  | attachRequestId =>
    exact .of_gate identify (fun called => Serving.withSpan called.1) Prod.snd identify_silent
      (fun called => .through (traces_underSpan called.1) traces_fst _)
      attachRequestId_eq
  | recovery =>
    exact .of_gate (fun ctx => .done (.ok ctx))
      (fun _ p => p.recover fun payload => Serving.fail (.ofPanic payload)) id (fun _ => trivial)
      (fun _ => .recover fun _ => traces_fail) fun _ _ => rfl
  | logTraffic config =>
    exact .of_gate (fun ctx => .done (.ok ctx))
      (fun _ p => (Serving.withLayer .fresh p).bind (logPassage config)) id (fun _ => trivial)
      (fun _ => .through traces_underLayer (traces_logPassage config) _) logTraffic_eq

/-- A middleware that comes with a server, as a recorder. -/
def recorder (part : Standard) : Recorder Context ν Streaming HandlerError Unit :=
  .silent part.middleware part.records

end Standard

end Middleware

namespace Client

/-- What a middleware does to what is called with a context and a request together. -/
def wrapOf (middleware : Middleware ν) :
    Wrap (Context × Request) ν Network ClientError Response :=
  fun next => Function.uncurry (middleware (Function.curry next))

/-- What `injectRequestId` does before it calls the round trip. -/
def addressed (call : Context × Request) :
    Program (Calling ν) (Except (Except ClientError Response) (Context × Request)) :=
  if call.2.headers.contains RequestId.header then .done (.ok call)
  else
    (onSurroundings (idToInject call.1)).bind fun id =>
      .done (.ok (call.1,
        { call.2 with headers := call.2.headers.insert RequestId.header id.text }))

theorem injectRequestId_eq
    (next : Callee (Context × Request) ν Network ClientError Response)
    (call : Context × Request) :
  wrapOf injectRequestId next call = (addressed call).bind (proceed next)
  := by
  obtain ⟨ctx, request⟩ := call
  have hwrap : wrapOf injectRequestId next (ctx, request)
      = injectRequestId (Function.curry next) ctx request := rfl
  rw [hwrap, injectRequestId, addressed]
  split
  · rfl
  · apply Eq.trans _ (Program.bind_assoc _ _ _).symm
    rfl

theorem addressed_silent (call : Context × Request) :
  (addressed (ν := ν) call).Uses (Program.Unnoted (T := Network))
  := by
  rw [addressed]
  split
  · trivial
  · rw [idToInject]
    cases call.1.requestId with
    | some id => trivial
    | none => exact ⟨rfl, fun _ => trivial⟩

/-- The middleware that comes with a client leaves no notes. -/
theorem injectRequestId_records :
  Records (wrapOf (injectRequestId (ν := ν))) [] []
  :=
  .of_gate addressed (fun _ p => p) (fun call => call) addressed_silent (fun _ => .id)
    injectRequestId_eq

end Client

/-- The middleware of a client that a recorder is. -/
def Recorder.tripper (r : Recorder (Context × Request) ν Client.Network ClientError Response) :
    Client.Middleware ν :=
  fun next => Function.curry (r.wrap (Function.uncurry next))

theorem Client.chain_tripper
    (rs : List (Recorder (Context × Request) ν Client.Network ClientError Response))
    (trip : RoundTrip ν) (ctx : Context) (request : Request) :
  chain (rs.map Recorder.tripper) trip ctx request
    = nest (rs.map Recorder.wrap) (Function.uncurry trip) (ctx, request)
  := by
  have hchain : Function.uncurry (chain (rs.map Recorder.tripper) trip)
      = nest (rs.map Recorder.wrap) (Function.uncurry trip) := by
    induction rs with
    | nil => rfl
    | cons r rs ih => exact congrArg r.wrap ih
  exact congrFun hchain (ctx, request)

/-! ### Runs -/

namespace Setting

variable {σ : Type}

theorem notes_reply
    (setting : Setting ν σ) {s t : Scene ν σ} {op : (Service ν).Op} {answer : (Service ν).Answer op}
    (h : setting.reply s op = some (answer, t)) :
  t.notes = s.notes ++ notesOf (T := Streaming) op
  := by
  have hkept : ∀ {reply : Option ((Service ν).Answer op × σ)},
      reply.map (fun r => (r.1, { s with state := r.2 })) = some (answer, t) →
        t.notes = s.notes ++ [] := by
    intro reply hreply
    obtain ⟨r, -, hr⟩ := Option.map_eq_some_iff.mp hreply
    cases hr
    exact (List.append_nil _).symm
  cases op with
  | inl op =>
    cases op with
    | log event =>
      cases h
      exact (List.append_nil _).symm
    | note note =>
      cases h
      rfl
    | _ => exact hkept h
  | inr op =>
    cases op with
    | id =>
      cases h
      exact (List.append_nil _).symm
    | _ => exact hkept h

/-- A run on a stream of any kind leaves the notes of a trace. -/
theorem traces_of_run
    (setting : Setting ν σ) {s t : Scene ν σ} {p : Serving ν α} {ending : Except Payload α}
    (h : setting.run s p = (outcomeOf ending, t)) :
  ∃ notes, p.Traces (T := Streaming) notes ending ∧ t.notes = s.notes ++ notes
  :=
  Program.Traces.of_run setting.notes_reply h

end Setting

namespace Client

variable {σ : Type}

/-- What calls are run against, where the notes that are left are kept. -/
structure Notebook (ν σ : Type) where
  setting : Setting ν σ
  notes : σ → List ν
  keeps (now : Nat) (s : σ) (op : (Calling ν).Op) :
    notes (setting.answer now s op).2 = notes s ++ notesOf (T := Network) op

/-- A round trip that nobody gives up leaves the notes of a trace. -/
theorem Notebook.traces_of_course
    (book : Notebook ν σ) {now : Nat} {s : σ}
    {p : Program (Calling ν) (Except ClientError Response)}
    {ending : Except Payload (Except ClientError Response)} {time : Nat} {t : σ}
    (h : (book.setting.course now s p).finish = ⟨outcomeOf ending, time, t⟩) :
  ∃ notes, p.Traces (T := Network) notes ending ∧ book.notes t = book.notes s ++ notes
  := by
  induction p generalizing now s with
  | done result =>
    cases ending with
    | error q => cases h
    | ok result' =>
      cases h
      exact ⟨[], .done result, (List.append_nil _).symm⟩
  | panic q =>
    cases ending with
    | ok result => cases h
    | error q' =>
      cases h
      exact ⟨[], .panic q, (List.append_nil _).symm⟩
  | step op next ih =>
    have hkept := book.keeps now s op
    rw [Setting.course] at h
    cases hanswer : book.setting.answer now s op with
    | mk reply u =>
      rw [hanswer] at h hkept
      have hrest : ∀ {answer later},
          (book.setting.course later u (next answer)).finish = ⟨outcomeOf ending, time, t⟩ →
            ∃ notes, (Program.step op next).Traces (T := Network) notes ending
              ∧ book.notes t = book.notes s ++ notes := by
        intro answer later hfinish
        obtain ⟨notes, htraces, hnotes⟩ := ih answer hfinish
        refine ⟨notesOf (T := Network) op ++ notes, .step answer htraces, ?_⟩
        rw [hnotes, hkept, List.append_assoc]
      cases reply with
      | now answer => exact hrest h
      | later wake answer => exact hrest h
      | never => cases ending <;> cases h

end Client

theorem World.notes_of_answer
    (w : World ν) (op : AmbientOp ν) {T : Signature} :
  ((w.answer op).elim w Prod.snd).notes = w.notes ++ notesOf (T := T) (.inl op)
  := by
  cases op with
  | note note => rfl
  | _ => exact (List.append_nil _).symm

namespace Client

/-- The notes of a call on a line. -/
def Line.notebook (caller : Token) : Notebook ν (World ν × Line) where
  setting := Line.setting caller
  notes s := s.1.notes
  keeps now s op := by
    obtain ⟨w, l⟩ := s
    cases op with
    | inl op =>
      have hnotes := w.notes_of_answer (T := Network) op
      rw [Line.setting]
      dsimp only
      cases hanswer : w.answer op with
      | none =>
        rw [hanswer] at hnotes
        exact hnotes
      | some r =>
        rw [hanswer] at hnotes
        exact hnotes
    | inr op => exact (List.append_nil _).symm

end Client

/-! ### The order -/

/-- How middlewares are put around one another, and what they record. -/
structure NestAsChosen (ν : Type) : Prop where
  /-- A server puts them around a handler as they have been chosen. -/
  server (choices : List (Server.Choice ν)) (handler : Handler ν) :
    (Server.Plan.ofChoices choices).wrap handler
      = chain (choices.flatMap Server.Choice.given) handler
  /-- So does a client around the round trip over a connection. -/
  client (choices : List (Client.Choice ν)) :
    (Client.Plan.ofChoices choices).roundTrip
      = Client.chain (choices.flatMap Client.Choice.given)
        (Client.physical (Client.Plan.ofChoices choices).settings.readBuffer)
  /-- The first one is the outermost. -/
  around_handler : Composes (chain (ν := ν))
  around_trip : Composes (Client.chain (ν := ν))
  /-- On a stream of any kind a run that ends leaves the notes of a nest. -/
  serving (rs : List (Recorder Context ν Streaming HandlerError Unit)) (handler : Handler ν)
    (called : Context → ν) (ended : Except Payload (Except HandlerError Unit) → ν) (ctx : Context)
    {σ : Type} (setting : Setting ν σ) (s t : Scene ν σ)
    (ending : Except Payload (Except HandlerError Unit)) :
    setting.run s (chain (rs.map Recorder.wrap) (attended called ended handler) ctx)
        = (outcomeOf ending, t) →
      ∃ notes, t.notes = s.notes ++ notes ∧ Nested rs (Attended called ended handler) notes ending
  /-- So does a call that is not given up. -/
  calling (rs : List (Recorder (Context × Request) ν Client.Network ClientError Response))
    (trip : Client.RoundTrip ν) (called : Context × Request → ν)
    (ended : Except Payload (Except ClientError Response) → ν) (ctx : Context) (request : Request)
    {σ : Type} (book : Client.Notebook ν σ) (limits : Client.Limits) (now : Nat) (s : σ) :
    let inner := attended called ended (Function.uncurry trip)
    let call := Client.chain (rs.map Recorder.tripper) (Function.curry inner) ctx request
    let own := book.setting.course now s call
    own.EndsAs limits book.setting (Client.race book.setting limits now s call)
      ∧ ∀ ending time t, own.finish = ⟨outcomeOf ending, time, t⟩ →
        ∃ notes, book.notes t = book.notes s ++ notes
          ∧ Nested rs (Attended called ended (Function.uncurry trip)) notes ending

/-- Middlewares are put around one another in the order in which they are chosen, the first
outermost, whatever else is chosen in between; for a server as well as for a client.

So when they record, the notes are those of a nest, on a stream of any kind and in every round trip
that is not given up.  That a handler or an inner round trip is called, and how it ends, is noted
too, so what is noted tells of this very run. -/
theorem middlewares_nest_as_chosen (ν : Type) :
  NestAsChosen ν
  where
  server := Server.Plan.wrap_ofChoices
  client := Client.Plan.roundTrip_ofChoices
  around_handler := composes_foldr
  around_trip := composes_foldr
  serving rs handler called ended ctx σ setting s t ending hrun := by
    obtain ⟨notes, htraces, hnotes⟩ := setting.traces_of_run hrun
    exact ⟨notes, hnotes, .of_traces_attended htraces⟩
  calling rs trip called ended ctx request σ book limits now s := by
    intro inner call own
    refine ⟨Client.race_ends book.setting limits now s call, ?_⟩
    intro ending time t hfinish
    obtain ⟨notes, htraces, hnotes⟩ := book.traces_of_course hfinish
    have hcall : call = nest (rs.map Recorder.wrap) inner (ctx, request) :=
      Client.chain_tripper rs (Function.curry inner) ctx request
    rw [hcall] at htraces
    exact ⟨notes, hnotes, .of_traces_attended htraces⟩

/-- Two parts of the usual chain, each with notes around it. -/
def guards : List (Recorder Context Nat Streaming HandlerError Unit) :=
  [Middleware.Standard.errorHandler.recorder.noting 1 8,
    Middleware.Standard.recovery.recorder.noting 2 7]

/-- The part that comes with a client, with notes around it, behind another one. -/
def labels : List (Recorder (Context × Request) Nat Client.Network ClientError Response) :=
  [(Recorder.silent (fun next => next) records_id).noting 1 8,
    (Recorder.silent _ Client.injectRequestId_records).noting 2 7]

/-- Nothing is left with success around a handler that panics, and everything around a round trip
that succeeds. -/
theorem guards_and_labels_nest :
  let handler : Handler Nat := fun _ => .panic (.text "stop")
  let trip : Client.RoundTrip Nat := fun _ _ => .done (.ok default)
  let scene : Scene Nat (Stage Nat) := ⟨Stage.ofInput (fun _ => 0) 0 [], [], []⟩
  let line : World Nat × Client.Line := (.fresh fun _ => 0, ⟨.fresh 0 ⟨[]⟩, 0, []⟩)
  let run := Setting.memory.run scene
    (chain (guards.map Recorder.wrap) (attended (fun _ => 3) (fun _ => 4) handler) default)
  let finish := ((Client.Line.notebook ⟨[]⟩).setting.course 0 line
    (Client.chain (labels.map Recorder.tripper)
      (Function.curry (attended (fun _ => 3) (fun _ => 4) (Function.uncurry trip))) default
      default)).finish
  (run.1 = outcomeOf (.ok (.error (.ofPanic (.text "stop")))) ∧ run.2.notes = [1, 2, 3, 4]
    ∧ ∃ notes, run.2.notes = scene.notes ++ notes
      ∧ Nested guards (Attended (fun _ => 3) (fun _ => 4) handler) notes
        (.ok (.error (.ofPanic (.text "stop")))))
    ∧ finish.outcome = outcomeOf (.ok (.ok default)) ∧ finish.state.1.notes = [1, 2, 3, 4, 7, 8]
      ∧ ∃ notes, finish.state.1.notes = line.1.notes ++ notes
        ∧ Nested labels (Attended (fun _ => 3) (fun _ => 4) (Function.uncurry trip)) notes
          (.ok (.ok default))
  := by
  intro handler trip scene line run finish
  have hnest := middlewares_nest_as_chosen Nat
  refine ⟨⟨rfl, rfl, ?_⟩, rfl, rfl, ?_⟩
  · exact hnest.serving guards handler (fun _ => 3) (fun _ => 4) default Setting.memory scene run.2
      _ rfl
  · exact (hnest.calling labels trip (fun _ => 3) (fun _ => 4) default default
      (Client.Line.notebook ⟨[]⟩) ⟨none, none⟩ 0 line).2 (.ok (.ok default)) 0 finish.state rfl

end StreamCall
