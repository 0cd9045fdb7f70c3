import Mathlib.Tactic.Use
import StreamCall.Proofs.Stream.Exchange
import StreamCall.Proofs.Text.Lossy
import StreamCall.Server.Shell

/-!
# Logging traffic changes nothing

Wherever `logTraffic` is put among the middlewares of a handler, the stream is served as without
it, but for the events it logs (`logTraffic_changes_nothing`).  What it logs is held against what
`telling` notes in its place: that middleware keeps a list of all operations of the rest and of
their answers, and once the rest has succeeded it tells which bytes have passed.  An event gives
them as text, ill-formed parts replaced (`Passage.LoggedBy`).

The proof relates three programs, that with neither middleware and those with one of the two
(`Follows`).  The relation starts where the middleware is put (`follows_part`), every caller
around it keeps it (`Follows.fill`), and it says how the runs differ (`Follows.run`).
-/

namespace StreamCall

open Middleware

variable {ν α β σ : Type}

/-! ### What passes -/

/-- What has passed through a stream: the bytes that were read, and those that were accepted for
writing. -/
structure Passage where
  /-- The number of the stream. -/
  stream : Nat
  read : Bytes
  accepted : Bytes
deriving DecidableEq, Repr

namespace Passage

/-- What has passed in the course of some operations. -/
def of (stream : Nat) (past : List Exchange) : Passage :=
  ⟨stream, past.flatMap Exchange.read, past.flatMap Exchange.accepted⟩

/-- Whether some events are those that tell of what has passed, in the course of some requests:
one of the text that was read and one of the text that was accepted, as they are wanted. -/
def LoggedBy (config : LogConfig) (p : Passage) (block : List Event) : Prop :=
  ∃ request response spans, Utf8.Reads p.read request ∧ Utf8.Reads p.accepted response
    ∧ block =
      (if config.request then
        [{ level := .debug, message := "Quic request body: " ++ String.ofList request
           stream := p.stream, code := none, spans }]
      else [])
      ++ if config.response then
        [{ level := .debug, message := "Quic response body: " ++ String.ofList response
           stream := p.stream, code := none, spans }]
      else []

/-- Whether a note is the one that tells of what has passed. -/
def ToldBy (tell : Passage → ν) (p : Passage) (block : List ν) : Prop :=
  block = [tell p]

end Passage

/-- Does an operation, and keeps it with its answer if it is one on the stream. -/
def recording (past : List Exchange) :
    (op : (Service ν).Op) → Serving ν ((Service ν).Answer op × List Exchange)
  | .inl op => .step (.inl op) fun answer => .done (answer, past)
  | .inr op => .step (.inr op) fun answer => .done (answer, past ++ [⟨op, answer⟩])

/-- Notes what has passed, once the rest has succeeded. -/
def telling (tell : Passage → ν) : Middleware ν := fun next ctx =>
  (Program.through recording [] (next ctx)).bind fun
    | (.ok _, past) =>
      Serving.streamId.bind fun stream =>
        (Serving.note (tell (.of stream past))).bind fun _ => .done (.ok ())
    | (.error e, _) => .done (.error e)

/-- Whether a list is another one with blocks put in, one for each of some items in their
order. -/
inductive Interspersed {ι ε : Type} (block : ι → List ε → Prop) :
    List ι → List ε → List ε → Prop where
  | nil : Interspersed block [] [] []
  | keep (x : ε) {is : List ι} {xs ys : List ε} :
    Interspersed block is xs ys → Interspersed block is (x :: xs) (x :: ys)
  | insert {i : ι} {b : List ε} (h : block i b) {is : List ι} {xs ys : List ε} :
    Interspersed block is xs ys → Interspersed block (i :: is) xs (b ++ ys)

/-! ### The three programs -/

/-- Logs some events, and goes on. -/
def logAll (events : List Event) (p : Serving ν α) : Serving ν α :=
  events.foldr (fun event rest => .step (.inl (.log event)) fun (_ : Unit) => rest) p

/-- Whether the second program is the first but for events that are logged of what has passed,
and the third but for notes that are left of it. -/
inductive Follows (config : LogConfig) (tell : Passage → ν) :
    Serving ν α → Serving ν α → Serving ν α → Prop where
  | done (a : α) : Follows config tell (.done a) (.done a) (.done a)
  | panic (q : Payload) : Follows config tell (.panic q) (.panic q) (.panic q)
  | step (op : (Service ν).Op) {plain logged told : (Service ν).Answer op → Serving ν α} :
    (∀ answer, Follows config tell (plain answer) (logged answer) (told answer)) →
    Follows config tell (.step op plain) (.step op logged) (.step op told)
  | passage (passed : Nat → Passage) {block : Nat → List Event}
      (h : ∀ k, (passed k).LoggedBy config (block k)) {plain logged told : Serving ν α} :
    Follows config tell plain logged told →
    Follows config tell plain
      (.step (S := Service ν) (.inr .id) fun (k : Nat) => logAll (block k) logged)
      (.step (S := Service ν) (.inr .id) fun (k : Nat) =>
        .step (.inl (.note (tell (passed k)))) fun (_ : Unit) => told)

section

variable {config : LogConfig} {tell : Passage → ν}

/-- The events that are logged of a passage. -/
def Passage.events (p : Passage) (config : LogConfig) : List Event :=
  (if config.request then [trafficEvent "request" p.read p.stream] else [])
    ++ if config.response then [trafficEvent "response" p.accepted p.stream] else []

theorem Passage.toldBy (tell : Passage → ν) (p : Passage) :
  p.ToldBy tell [tell p]
  :=
  rfl

/-- The events of a passage give the texts that its bytes are read as. -/
theorem Passage.LoggedBy.events (p : Passage) (config : LogConfig) :
  p.LoggedBy config (p.events config)
  := by
  refine ⟨(Utf8.lossy p.read).toList, (Utf8.lossy p.accepted).toList, [],
    (Utf8.reads_iff _ _).mpr rfl, (Utf8.reads_iff _ _).mpr rfl, ?_⟩
  rw [String.ofList_toList, String.ofList_toList]
  rfl

theorem Passage.LoggedBy.under {p : Passage} {block : List Event} (h : p.LoggedBy config block)
    (spans : List RequestId) :
  p.LoggedBy config (block.map (Event.under spans))
  := by
  obtain ⟨request, response, spans', hrequest, hresponse, rfl⟩ := h
  use request, response, spans ++ spans', hrequest, hresponse
  rw [List.map_append, apply_ite (List.map _), apply_ite (List.map _)]
  rfl

namespace Follows

/-- A program follows itself. -/
theorem refl (p : Serving ν α) :
  Follows config tell p p p
  := by
  induction p with
  | done a => exact .done a
  | panic q => exact .panic q
  | step op next ih => exact .step op ih

theorem logAll_bind (events : List Event) (p : Serving ν α) (f : α → Serving ν β) :
  (logAll events p).bind f = logAll events (p.bind f)
  := by
  induction events with
  | nil => rfl
  | cons event events ih =>
    exact congrArg (fun rest => Program.step (S := Service ν) (.inl (.log event))
      fun (_ : Unit) => rest) ih

theorem bind
    {plain logged told : Serving ν α} (h : Follows config tell plain logged told)
    {f g k : α → Serving ν β} (hrest : ∀ a, Follows config tell (f a) (g a) (k a)) :
  Follows config tell (plain.bind f) (logged.bind g) (told.bind k)
  := by
  induction h with
  | done a => exact hrest a
  | panic q => exact .panic q
  | step op _ ih => exact .step op ih
  | passage passed hblock _ ih =>
    have hlogged := Follows.passage passed hblock ih
    simp only [← logAll_bind] at hlogged
    exact hlogged

theorem enclose_logAll
    (cover : Cover ν σ) (s : σ) (events : List Event) (p : Serving ν α) :
  Program.enclose cover.on s (logAll events p)
    = logAll (events.map (Event.under cover.spans)) (Program.enclose cover.on s p)
  := by
  induction events with
  | nil => rfl
  | cons event events ih =>
    exact congrArg (fun rest => Program.step (S := Service ν)
      (.inl (.log (event.under cover.spans))) fun (_ : Unit) => rest) ih

/-- A cover keeps the relation. -/
theorem enclose
    {plain logged told : Serving ν α} (h : Follows config tell plain logged told)
    (cover : Cover ν σ) (s : σ) :
  Follows config tell (Program.enclose cover.on s plain) (Program.enclose cover.on s logged)
    (Program.enclose cover.on s told)
  := by
  induction h generalizing s with
  | done a => exact .refl _
  | panic q => exact .refl _
  | step op _ ih =>
    apply bind (.refl (cover.on s op))
    rintro ⟨_ | answer, s'⟩
    · exact .refl _
    · exact ih answer s'
  | passage passed hblock _ ih =>
    have hlogged := Follows.passage (fun k => passed (cover.number k))
      (fun k => (hblock (cover.number k)).under cover.spans) (ih s)
    simp only [← enclose_logAll] at hlogged
    exact hlogged

/-- A caller keeps the relation. -/
theorem fill
    {plain logged told : Handler ν}
    (h : ∀ ctx, Follows config tell (plain ctx) (logged ctx) (told ctx))
    (shell : Shell ν α) :
  Follows config tell (shell.fill plain) (shell.fill logged) (shell.fill told)
  := by
  induction shell with
  | done a => exact .done a
  | panic q => exact .panic q
  | step op next ih => exact .step op ih
  | call ctx cover s next ih => exact bind ((h ctx).enclose cover s) fun r => ih r.1 r.2

/-- So do any number of them. -/
theorem chain
    {plain logged told : Handler ν}
    (h : ∀ ctx, Follows config tell (plain ctx) (logged ctx) (told ctx))
    (callers : List (Caller ν)) (ctx : Context) :
  Follows config tell (StreamCall.chain (callers.map Caller.middleware) plain ctx)
    (StreamCall.chain (callers.map Caller.middleware) logged ctx)
    (StreamCall.chain (callers.map Caller.middleware) told ctx)
  := by
  induction callers generalizing ctx with
  | nil => exact h ctx
  | cons caller callers ih => exact fill ih (caller ctx)

end Follows

/-! ### Where the middleware is put -/

/-- What `logTraffic` does once the rest has ended. -/
def logPassage (config : LogConfig) :
    Except HandlerError Unit × Layer → Serving ν (Except HandlerError Unit)
  | (.ok _, .tee read written) =>
    .step (.inr .id) fun (stream : Nat) =>
      logAll (Passage.events ⟨stream, read, written⟩ config) (.done (.ok ()))
  | (result, _) => .done result

/-- What `telling` does once the rest has ended. -/
def tellPassage (tell : Passage → ν) :
    Except HandlerError Unit × List Exchange → Serving ν (Except HandlerError Unit)
  | (.ok _, past) =>
    .step (.inr .id) fun (stream : Nat) =>
      .step (.inl (.note (tell (.of stream past)))) fun (_ : Unit) => .done (.ok ())
  | (.error e, _) => .done (.error e)

theorem logTraffic_eq (next : Handler ν) (ctx : Context) :
  logTraffic config next ctx = (Serving.withLayer .fresh (next ctx)).bind (logPassage config)
  := by
  rw [logTraffic]
  congr 1
  funext ⟨result, layer⟩
  cases result with
  | error e => rfl
  | ok _ =>
    cases layer with
    | limited limit remaining => rfl
    | tee read written =>
      obtain ⟨request, response⟩ := config
      cases request <;> cases response <;> rfl

theorem telling_eq (next : Handler ν) (ctx : Context) :
  telling tell next ctx = (Program.through recording [] (next ctx)).bind (tellPassage tell)
  := by
  rw [telling]
  congr 1

namespace Follows

theorem follows_part (p : Serving ν (Except HandlerError Unit)) (past : List Exchange) :
  Follows config tell p
    ((Serving.withLayer (.tee (past.flatMap Exchange.read) (past.flatMap Exchange.accepted)) p).bind
      (logPassage config))
    ((Program.through recording past p).bind (tellPassage tell))
  := by
  -- The tee starts with what has passed in the course of `past`, and keeps in step with it.
  induction p generalizing past with
  | done result =>
    cases result with
    | error e => exact .done _
    | ok _ =>
      exact .passage (fun k => .of k past) (fun k => .events (.of k past) config) (.refl _)
  | panic q => exact .panic q
  | step op next ih =>
    cases op with
    | inl op => exact .step (.inl op) fun answer => ih answer past
    | inr op =>
      have hwith : Serving.withLayer
            (.tee (past.flatMap Exchange.read) (past.flatMap Exchange.accepted))
            (.step (.inr op) next)
          = (Serving.onStream ((Layer.tee (past.flatMap Exchange.read)
              (past.flatMap Exchange.accepted)).on op)).bind fun r =>
                Serving.withLayer r.2 (next r.1) := rfl
      rw [hwith, tee_on]
      apply Follows.step (.inr op)
      intro answer
      have hrest := ih answer (past ++ [⟨op, answer⟩])
      rw [List.flatMap_append, List.flatMap_append, List.flatMap_singleton,
        List.flatMap_singleton] at hrest
      exact hrest

end Follows

/-! ### The three runs -/

/-- Blocks may be put in behind what both lists begin with. -/
theorem Interspersed.append_left
    {ι ε : Type} {block : ι → List ε → Prop} {is : List ι} {xs ys : List ε}
    (h : Interspersed block is xs ys) (front : List ε) :
  Interspersed block is (front ++ xs) (front ++ ys)
  := by
  induction front with
  | nil => exact h
  | cons x front ih => exact .keep x ih

namespace Setting

variable (setting : Setting ν σ)

/-- An operation logs, or leaves a note, or concerns the state alone. -/
theorem reply_cases (op : (Service ν).Op) :
  (∃ event, op = .inl (.log event)) ∨ (∃ note, op = .inl (.note note))
    ∨ ∃ answer : σ → Option ((Service ν).Answer op × σ),
      ∀ s : Scene ν σ, setting.reply s op
        = (answer s.state).map fun r => (r.1, { s with state := r.2 })
  := by
  cases op with
  | inl op =>
    cases op with
    | log event => exact .inl ⟨event, rfl⟩
    | note note => exact .inr (.inl ⟨note, rfl⟩)
    | _ => exact .inr (.inr ⟨fun s => setting.answer s _, fun _ => rfl⟩)
  | inr op =>
    cases op with
    | id => exact .inr (.inr ⟨fun s => some (setting.number s, s), fun _ => rfl⟩)
    | _ => exact .inr (.inr ⟨fun s => setting.answer s _, fun _ => rfl⟩)

theorem run_logAll (s : Scene ν σ) (events : List Event) (p : Serving ν α) :
  setting.run s (logAll events p) = setting.run { s with events := s.events ++ events } p
  := by
  induction events generalizing s with
  | nil => simp [logAll]
  | cons event events ih =>
    have hrest := ih { s with events := s.events ++ [event] }
    rw [List.append_assoc] at hrest
    exact hrest

end Setting

/-- Programs that follow one another run alike, but for what is logged and told of what has
passed. -/
theorem Follows.run
    {plain logged told : Serving ν α} (h : Follows config tell plain logged told)
    (setting : Setting ν σ) (s : Scene ν σ) (events : List Event) (notes : List ν) :
  ∃ outcome state passages es es' ns ns',
    setting.run s plain = (outcome, ⟨state, s.events ++ es, s.notes ++ ns⟩)
      ∧ setting.run { s with events } logged = (outcome, ⟨state, events ++ es', s.notes ++ ns⟩)
      ∧ setting.run { s with notes } told = (outcome, ⟨state, s.events ++ es, notes ++ ns'⟩)
      ∧ Interspersed (Passage.LoggedBy config) passages es es'
      ∧ Interspersed (Passage.ToldBy tell) passages ns ns'
  := by
  -- What has been logged and noted before differs from run to run, once a passage is behind.
  induction h generalizing s events notes with
  | done a =>
    use .done a, s.state, [], [], [], [], []
    simp only [List.append_nil]
    exact ⟨rfl, rfl, rfl, .nil, .nil⟩
  | panic q =>
    use .panicked q, s.state, [], [], [], [], []
    simp only [List.append_nil]
    exact ⟨rfl, rfl, rfl, .nil, .nil⟩
  | step op _ ih =>
    obtain ⟨event, rfl⟩ | ⟨note, rfl⟩ | ⟨answer, hanswer⟩ := setting.reply_cases op
    · obtain ⟨outcome, state, passages, es, es', ns, ns', hplain, hlogged, htold, hes, hns⟩ :=
        ih () { s with events := s.events ++ [event] } (events ++ [event]) notes
      rw [List.append_assoc] at hplain hlogged htold
      exact ⟨outcome, state, passages, event :: es, event :: es', ns, ns',
        hplain, hlogged, htold, .keep event hes, hns⟩
    · obtain ⟨outcome, state, passages, es, es', ns, ns', hplain, hlogged, htold, hes, hns⟩ :=
        ih () { s with notes := s.notes ++ [note] } events (notes ++ [note])
      rw [List.append_assoc] at hplain hlogged htold
      exact ⟨outcome, state, passages, es, es', note :: ns, note :: ns',
        hplain, hlogged, htold, hes, .keep note hns⟩
    · cases h : answer s.state with
      | none =>
        have hwaits : ∀ events notes (next : (Service ν).Answer op → Serving ν α),
            setting.run ⟨s.state, events, notes⟩ (.step op next)
              = (.waiting, ⟨s.state, events, notes⟩) := by
          intro events notes next
          apply Program.run_step_waiting
          rw [hanswer, h]
          rfl
        use .waiting, s.state, [], [], [], [], []
        simp only [List.append_nil]
        exact ⟨hwaits .., hwaits .., hwaits .., .nil, .nil⟩
      | some r =>
        have hsteps : ∀ events notes (next : (Service ν).Answer op → Serving ν α),
            setting.run ⟨s.state, events, notes⟩ (.step op next)
              = setting.run ⟨r.2, events, notes⟩ (next r.1) := by
          intro events notes next
          apply Program.run_step
          rw [hanswer, h]
          rfl
        obtain ⟨outcome, state, passages, es, es', ns, ns', hplain, hlogged, htold, hspersed⟩ :=
          ih r.1 { s with state := r.2 } events notes
        exact ⟨outcome, state, passages, es, es', ns, ns', (hsteps ..).trans hplain,
          (hsteps ..).trans hlogged, (hsteps ..).trans htold, hspersed⟩
  | @passage passed block hblock plain logged told _ ih =>
    let p := passed (setting.number s.state)
    let logs := block (setting.number s.state)
    obtain ⟨outcome, state, passages, es, es', ns, ns', hplain, hlogged, htold, hes, hns⟩ :=
      ih s (events ++ logs) (notes ++ [tell p])
    rw [List.append_assoc] at hlogged htold
    exact ⟨outcome, state, p :: passages, es, logs ++ es', ns, tell p :: ns', hplain,
      (setting.run_logAll { s with events } logs logged).trans hlogged, htold,
      .insert (hblock _) hes, .insert (Passage.toldBy tell p) hns⟩

end

theorem chain_append (middlewares rest : List (Middleware ν)) (handler : Handler ν) :
  chain (middlewares ++ rest) handler = chain middlewares (chain rest handler)
  :=
  List.foldr_append

/-- Wherever it is put, `logTraffic` changes nothing: the outcome, the state that the stream and
its surroundings are left in, and all notes are the same, and the events are the same but for
those that tell of what has passed through the rest whenever the rest has succeeded.  What has
passed is what `telling` notes in the same place.

A handler may note whatever it sees, so it sees the same.  What is put outside knows the rest by
calling it only, and what is put inside may be anything. -/
theorem logTraffic_changes_nothing
    (setting : Setting ν σ) (s : Scene ν σ) (callers : List (Caller ν))
    (inner : List (Middleware ν)) (handler : Handler ν) (ctx : Context) (config : LogConfig)
    (tell : Passage → ν) :
  let served middlewares :=
    setting.run s (chain (callers.map Caller.middleware ++ middlewares ++ inner) handler ctx)
  ∃ outcome, ∃ t : Scene ν σ, ∃ passages events notes,
    served [] = (outcome, t)
      ∧ served [logTraffic config] = (outcome, { t with events })
      ∧ served [telling tell] = (outcome, { t with notes })
      ∧ Interspersed (Passage.LoggedBy config) passages t.events events
      ∧ Interspersed (Passage.ToldBy tell) passages t.notes notes
  := by
  intro served
  have hfollows : ∀ ctx, Follows config tell (chain inner handler ctx)
      (logTraffic config (chain inner handler) ctx) (telling tell (chain inner handler) ctx) := by
    intro ctx
    rw [logTraffic_eq, telling_eq]
    exact Follows.follows_part (chain inner handler ctx) []
  obtain ⟨outcome, state, passages, es, es', ns, ns', hplain, hlogged, htold, hes, hns⟩ :=
    (Follows.chain hfollows callers ctx).run setting s s.events s.notes
  use outcome, ⟨state, s.events ++ es, s.notes ++ ns⟩, passages, s.events ++ es', s.notes ++ ns'
  have hserved : ∀ middlewares, served middlewares
      = setting.run s (chain (callers.map Caller.middleware)
          (chain middlewares (chain inner handler)) ctx) := by
    intro middlewares
    simp only [served, chain_append]
  simp only [hserved]
  exact ⟨hplain, hlogged, htold, hes.append_left _, hns.append_left _⟩

end StreamCall
