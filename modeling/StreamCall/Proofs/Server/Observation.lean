import StreamCall.Proofs.Server.DefaultChain

/-!
# Observing a unary function

A unary function that is called in the course of a request runs as it does by itself, but for
the events it logs (`run_calling`); so its notes tell what it was called with.
`Unary.observed` makes a function leave notes of its calls and of how they end, and changes
nothing else: in every world it goes on as the function itself does (`run_watched`).  What is
noted are the `World.sightings`.
-/

namespace StreamCall

variable {ν : Type}

/-- What is noted of a unary function. -/
inductive Sighting (ν : Type) where
  | called (ctx : Context) (request : Request)
  | returned (result : Except HandlerError Response)
  | panicked (payload : Payload)
  /-- A note of its own. -/
  | own (note : ν)

/-- Whether a note is one of the function's own. -/
def Sighting.isOwn : Sighting ν → Bool
  | .own _ => true
  | _ => false

/-- A program that notes how it ends. -/
def watched : Program (Ambient ν) (Except HandlerError Response) →
    Program (Ambient (Sighting ν)) (Except HandlerError Response)
  | .done result => .step (.note (.returned result)) fun (_ : Unit) => .done result
  | .panic q => .step (.note (.panicked q)) fun (_ : Unit) => .panic q
  | .step (.log event) next => .step (.log event) fun (_ : Unit) => watched (next ())
  | .step (.note note) next => .step (.note (.own note)) fun (_ : Unit) => watched (next ())
  | .step (.random n) next => .step (.random n) fun (bytes : Bytes) => watched (next bytes)
  | .step .now next => .step .now fun (time : Nat) => watched (next time)
  | .step (.isCancelled token) next =>
    .step (.isCancelled token) fun (answer : Bool) => watched (next answer)
  | .step (.cancel token) next => .step (.cancel token) fun (_ : Unit) => watched (next ())
  | .step (.branch token) next =>
    .step (.branch token) fun (child : Token) => watched (next child)
  | .step .pause next => .step .pause fun (_ : Unit) => watched (next ())
  | .step .hang _ => .step .hang fun (never : Empty) => never.elim

/-- The function with its calls and their ends noted. -/
def Unary.observed (f : Unary ν) : Unary (Sighting ν) := fun ctx request =>
  .step (.note (.called ctx request)) fun (_ : Unit) => watched (f ctx request)

/-- What has been noted of the function, apart from its own notes. -/
def World.sightings (w : World (Sighting ν)) : List (Sighting ν) :=
  w.notes.filter fun s => !s.isOwn

/-- The same world without notes. -/
def World.plain (w : World (Sighting ν)) : World ν :=
  { tokens := w.tokens, events := w.events, notes := [], source := w.source, drawn := w.drawn
    clock := w.clock }

/-- Whether two worlds answer alike. -/
structure World.Alike (u : World ν) (w : World (Sighting ν)) : Prop where
  tokens : u.tokens = w.tokens
  source : u.source = w.source
  drawn : u.drawn = w.drawn
  clock : u.clock = w.clock

/-- What is noted of how a call ends; a call that does not end is not noted. -/
def endSightings : Outcome (Except HandlerError Response) → List (Sighting ν)
  | .done result => [.returned result]
  | .panicked q => [.panicked q]
  | .waiting => []

/-- A watched program ends as the program does, in the same world, and what is noted is how it
ends. -/
theorem run_watched
    (p : Program (Ambient ν) (Except HandlerError Response)) (u : World ν)
    (w : World (Sighting ν)) (h : u.Alike w) :
  ∃ w', (watched p).run World.answer w = ((p.run World.answer u).1, w')
    ∧ w'.sightings = w.sightings ++ endSightings (p.run World.answer u).1
  := by
  induction p generalizing u w with
  | done result => exact ⟨_, rfl, by
      simp [World.sightings, Sighting.isOwn, Program.run, endSightings]⟩
  | panic q => exact ⟨_, rfl, by
      simp [World.sightings, Sighting.isOwn, Program.run, endSightings]⟩
  | step op next ih =>
    obtain ⟨tokens, events, notes, source, drawn, clock⟩ := u
    obtain ⟨_, events', notes', _, _, _⟩ := w
    obtain ⟨rfl, rfl, rfl, rfl⟩ := h
    have halike : ∀ (tokens : Tokens) (drawn : Nat) (events events' : List Event) (notes : List ν)
        (notes' : List (Sighting ν)),
        World.Alike ⟨tokens, events, notes, source, drawn, clock⟩
          ⟨tokens, events', notes', source, drawn, clock⟩ :=
      fun _ _ _ _ _ _ => ⟨rfl, rfl, rfl, rfl⟩
    cases op with
    | log event => exact ih () _ _ (halike ..)
    | note note =>
      obtain ⟨w', hrun, hsightings⟩ := ih () _ _ (halike tokens drawn events events'
        (notes ++ [note]) (notes' ++ [.own note]))
      refine ⟨w', hrun, hsightings.trans ?_⟩
      simp [World.sightings, Sighting.isOwn, Program.run, World.answer]
    | random n => exact ih _ _ _ (halike ..)
    | now => exact ih _ _ _ (halike ..)
    | isCancelled token => exact ih _ _ _ (halike ..)
    | cancel token => exact ih () _ _ (halike ..)
    | branch token => exact ih _ _ _ (halike ..)
    | pause | hang => exact ⟨_, rfl, (List.append_nil _).symm⟩

/-- A call of an observed function is noted, and then how it ends; it ends as a call of the
function does. -/
theorem run_observed
    (f : Unary ν) (ctx : Context) (request : Request) (w : World (Sighting ν)) :
  ∃ w', (f.observed ctx request).run World.answer w
      = (((f ctx request).run World.answer w.plain).1, w')
    ∧ w'.sightings = w.sightings ++ .called ctx request
      :: endSightings ((f ctx request).run World.answer w.plain).1
  := by
  obtain ⟨w', hrun, hsightings⟩ := run_watched (f ctx request) w.plain
    { w with notes := w.notes ++ [.called ctx request] } ⟨rfl, rfl, rfl, rfl⟩
  refine ⟨w', hrun, hsightings.trans ?_⟩
  simp [World.sightings, Sighting.isOwn]

/-! ### Calls in the course of a request -/

/-- The end of a run with panics made results. -/
def Outcome.caught {α : Type} : Outcome α → Outcome (Except Payload α)
  | .done a => .done (.ok a)
  | .panicked q => .done (.error q)
  | .waiting => .waiting

theorem Outcome.caught_ne_panicked {α : Type} (outcome : Outcome α) (q : Payload) :
  outcome.caught ≠ .panicked q
  := by
  cases outcome <;> simp [caught]

theorem Program.run_attempt
    {S : Signature} {α σ : Type} (answer : σ → (op : S.Op) → Option (S.Answer op × σ))
    (p : Program S α) (s : σ) :
  p.attempt.run answer s = ((p.run answer s).1.caught, (p.run answer s).2)
  := by
  induction p generalizing s with
  | done a => rfl
  | panic q => rfl
  | step op next ih =>
    simp only [attempt, run]
    cases answer s op with
    | none => rfl
    | some r => exact ih r.1 r.2

/-- In the course of a request only the events are others. -/
theorem run_spanned
    {α : Type} (id : RequestId) (p : Program (Ambient ν) α) (w : World ν) (events : List Event) :
  ∃ events', (spanned id p).run World.answer { w with events }
    = ((p.run World.answer w).1, { (p.run World.answer w).2 with events := events' })
  := by
  induction p generalizing w events with
  | done a => exact ⟨events, rfl⟩
  | panic q => exact ⟨events, rfl⟩
  | step op next ih =>
    cases op with
    | log event =>
      exact ih () { w with events := w.events ++ [event] } (events ++ [event.within id])
    | note note => exact ih () { w with notes := w.notes ++ [note] } events
    | random n => exact ih (w.random n).1 (w.random n).2 events
    | now => exact ih w.clock w events
    | isCancelled token => exact ih (w.tokens.isCancelled token) w events
    | cancel token => exact ih () { w with tokens := w.tokens.cancel token } events
    | branch token =>
      exact ih (w.tokens.child token).1 { w with tokens := (w.tokens.child token).2 } events
    | pause | hang => exact ⟨events, rfl⟩

/-- The id of a request: what its header holds without the blanks around it, or a fresh one if
it has no such header or a blank one. -/
def Request.idOr (request : Request) (fresh : RequestId) : RequestId :=
  match request.headers.get? RequestId.header with
  | none => fresh
  | some value => if Text.trim value = "" then fresh else ⟨Text.trim value⟩

theorem Request.idOr_eq (request : Request) (fresh : RequestId) :
  request.idOr fresh = ((request.headers.get? RequestId.header).bind RequestId.parse).getD fresh
  := by
  rw [idOr]
  cases request.headers.get? RequestId.header with
  | none => rfl
  | some value => by_cases hblank : Text.trim value = "" <;> simp [RequestId.parse, hblank]

/-- Only a fresh id takes anything of the surroundings. -/
theorem run_requestIdOf (request : Request) (w : World ν) :
  ∃ w', (Middleware.requestIdOf request).run World.answer w
      = (.done (request.idOr (.ofRandom (w.random 16).1)), w')
    ∧ w'.notes = w.notes
  := by
  have hgenerate : RequestId.generate.run World.answer w
      = (.done (.ofRandom (w.random 16).1), (w.random 16).2) := rfl
  rw [Middleware.requestIdOf, Request.idOr_eq]
  cases (request.headers.get? RequestId.header).bind RequestId.parse with
  | none => exact ⟨_, hgenerate, rfl⟩
  | some id => exact ⟨w, rfl, rfl⟩

theorem World.sightings_congr {w w' : World (Sighting ν)} (h : w'.notes = w.notes) :
  w'.sightings = w.sightings
  := by
  rw [World.sightings, h, World.sightings]

/-- The context that the usual chain calls its function with. -/
def Context.called (token : Token) (max : Nat) (request : Request) (id : RequestId) : Context :=
  { token, request := some request, requestId := some id, bodyLimit := some max }

/-- Whether the usual chain calls its function for a request with a context. -/
def Context.IsCalled (max : Nat) (request : Request) (ctx : Context) : Prop :=
  ∃ token bytes, bytes.length = 16
    ∧ ctx = .called token max request (request.idOr (.ofRandom bytes))

theorem Context.isCalled (token : Token) (max : Nat) (request : Request) (w : World ν) :
  (Context.called token max request (request.idOr (.ofRandom (w.random 16).1))).IsCalled
    max request
  :=
  ⟨token, (w.random 16).1, by simp [World.random], rfl⟩

/-- An admitted request is what the function is called with, once: the run is that of the
function in some world, but for the events. -/
theorem run_calling (f : Unary ν) (ctx : Context) (request : Request) (w : World ν) :
  let ctx' := ctx.withRequestId (request.idOr (.ofRandom (w.random 16).1))
  ∃ u w', u.notes = w.notes
    ∧ (calling f ctx request).run World.answer w
      = (((f ctx' request).run World.answer u).1.caught, w')
    ∧ w'.notes = ((f ctx' request).run World.answer u).2.notes
  := by
  intro ctx'
  obtain ⟨u, hid, hnotes⟩ := run_requestIdOf request w
  obtain ⟨events, hrun⟩ := run_spanned (request.idOr (.ofRandom (w.random 16).1))
    (f ctx' request).attempt u u.events
  rw [Program.run_attempt] at hrun
  refine ⟨u, { ((f ctx' request).run World.answer u).2 with events }, hnotes, ?_, rfl⟩
  rw [calling, Program.run_bind, hid]
  exact hrun

/-- Such a call of an observed function is noted, and then how it ends. -/
theorem run_calling_observed
    (f : Unary ν) (ctx : Context) (request : Request) (w : World (Sighting ν)) :
  let ctx' := ctx.withRequestId (request.idOr (.ofRandom (w.random 16).1))
  ∃ u w', (calling f.observed ctx request).run World.answer w
      = (((f ctx' request).run World.answer u).1.caught, w')
    ∧ w'.sightings = w.sightings ++ .called ctx' request
      :: endSightings ((f ctx' request).run World.answer u).1
  := by
  intro ctx'
  obtain ⟨u, w', hnotes, hcalling, hnotes'⟩ := run_calling f.observed ctx request w
  obtain ⟨w'', hrun, hsightings⟩ := run_observed f ctx' request u
  rw [hrun] at hcalling hnotes'
  refine ⟨u.plain, w', hcalling, ?_⟩
  rw [World.sightings_congr hnotes', hsightings, World.sightings_congr hnotes]

end StreamCall
