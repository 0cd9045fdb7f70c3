import StreamCall.Proofs.Trace

/-!
# Nesting

Parts that are put around one another, the first outermost, and that each leave notes when they
are entered and when what is behind them has succeeded, leave these notes in the order of a nest:
those of entering in the order of the parts, and those of leaving the other way round
(`Nested.of_traces`).  What a single part does is `Records`; `recorded` makes such a part of another
one, and `Records.of_gate` tells how most of them are built.  What is in the middle can be
`attended`, so that the notes tell whether it was called and how it ended.
-/

namespace StreamCall

variable {ν χ ε α γ : Type} {T : Signature}

/-- What is called with something, and ends with an error or without. -/
abbrev Callee (χ ν : Type) (T : Signature) (ε α : Type) :=
  χ → Program ((Ambient ν).sum T) (Except ε α)

/-- What is put around a callee. -/
abbrev Wrap (χ ν : Type) (T : Signature) (ε α : Type) := Callee χ ν T ε α → Callee χ ν T ε α

/-- Whether an ending is a success. -/
def succeeded : Except Payload (Except ε α) → Bool
  | .ok (.ok _) => true
  | _ => false

/-- Whether something that is put around a callee leaves some notes when it is entered, and others
when the callee has succeeded.  It calls the callee once and succeeds as it does, or it ends by
itself, whatever the callee is, and may note that in some way. -/
def Records (wrap : Wrap χ ν T ε α) (enter leave : List ν) : Prop :=
  ∀ (next : Callee χ ν T ε α) x notes ending, (wrap next x).Traces notes ending →
    (∃ own, notes = enter ++ own ∧ ∀ other, (wrap other x).Traces notes ending)
    ∨ ∃ y own result, (next y).Traces own result ∧ succeeded ending = succeeded result
      ∧ notes = enter ++ own ++ if succeeded ending then leave else []

/-- What is put around a callee and records. -/
structure Recorder (χ ν : Type) (T : Signature) (ε α : Type) where
  wrap : Wrap χ ν T ε α
  /-- The notes of being entered. -/
  enter : List ν
  /-- The notes of having called the callee with success. -/
  leave : List ν
  records : Records wrap enter leave

/-! ### Single parts -/

/-- Notes the end of a call if it is a success. -/
def noteSuccess (note : ν) : Except ε α → Program ((Ambient ν).sum T) (Except ε α)
  | .ok a => .step (.inl (.note note)) fun (_ : Unit) => .done (.ok a)
  | .error e => .done (.error e)

/-- Notes that a part is entered, and that what is behind it has succeeded. -/
def recorded (enter leave : ν) (wrap : Wrap χ ν T ε α) : Wrap χ ν T ε α := fun next x =>
  .step (.inl (.note enter)) fun (_ : Unit) => wrap (fun y => (next y).bind (noteSuccess leave)) x

theorem traces_noteSuccess
    {p : Program ((Ambient ν).sum T) (Except ε α)} {note : ν} {notes : List ν}
    {ending : Except Payload (Except ε α)} (h : (p.bind (noteSuccess note)).Traces notes ending) :
  ∃ own result, p.Traces own result ∧ succeeded ending = succeeded result
    ∧ notes = own ++ if succeeded ending then [note] else []
  := by
  obtain ⟨q, hp, rfl⟩ | ⟨result, own, rest, hp, hrest, rfl⟩ := h.of_bind
  · exact ⟨notes, .error q, hp, rfl, (List.append_nil _).symm⟩
  · cases result with
    | error e =>
      cases hrest
      exact ⟨own, _, hp, rfl, rfl⟩
    | ok a =>
      cases hrest with
      | step _ hdone =>
        cases hdone
        exact ⟨own, _, hp, rfl, rfl⟩

/-- What is noted in addition comes first on the way in, and first on the way out. -/
theorem Records.recorded
    {wrap : Wrap χ ν T ε α} {enters leaves : List ν} (h : Records wrap enters leaves)
    (enter leave : ν) :
  Records (recorded enter leave wrap) (enter :: enters) (leave :: leaves)
  := by
  intro next x notes ending htraces
  cases htraces with
  | step _ hwrap =>
    obtain ⟨own, rfl, hother⟩ | ⟨y, own, result, hnext, hsucceeded, rfl⟩ := h _ _ _ _ hwrap
    · exact .inl ⟨own, rfl, fun other => (hother _).note enter⟩
    · obtain ⟨own, result', hown, hresult, rfl⟩ := traces_noteSuccess hnext
      refine .inr ⟨y, own, result', hown, hsucceeded.trans hresult, ?_⟩
      rw [← hsucceeded]
      cases succeeded ending <;> simp [notesOf]

/-- Whether what is done with a program leaves no notes of its own, and succeeds as the program
does. -/
def Faithful
    (finish : Program ((Ambient ν).sum T) (Except ε α) →
      Program ((Ambient ν).sum T) (Except ε α)) : Prop :=
  ∀ p notes ending, (finish p).Traces notes ending →
    ∃ result, p.Traces notes result ∧ succeeded ending = succeeded result

namespace Faithful

variable {σ : Type}

theorem id :
  Faithful fun p : Program ((Ambient ν).sum T) (Except ε α) => p
  :=
  fun _ _ _ h => ⟨_, h, rfl⟩

/-- What comes behind a program may leave its success alone. -/
theorem bind
    {f : Except ε α → Program ((Ambient ν).sum T) (Except ε α)}
    (hf : ∀ result {notes ending}, (f result).Traces notes ending →
      notes = [] ∧ succeeded ending = succeeded (.ok result)) :
  Faithful fun p => p.bind f
  := by
  intro p notes ending h
  obtain ⟨q, hp, rfl⟩ | ⟨result, first, rest, hp, hrest, rfl⟩ := h.of_bind
  · exact ⟨.error q, hp, rfl⟩
  · obtain ⟨rfl, hends⟩ := hf result hrest
    rw [List.append_nil]
    exact ⟨.ok result, hp, hends⟩

/-- So it may when operations have been given a meaning. -/
theorem through
    {meaning : σ → (op : ((Ambient ν).sum T).Op) →
      Program ((Ambient ν).sum T) (((Ambient ν).sum T).Answer op × σ)}
    (hmeaning : ∀ s op {notes ending}, (meaning s op).Traces notes ending →
      notes = notesOf op ∧ ∃ r, ending = .ok r)
    {f : Except ε α × σ → Program ((Ambient ν).sum T) (Except ε α)}
    (hf : ∀ r {notes ending}, (f r).Traces notes ending →
      notes = [] ∧ succeeded ending = succeeded (.ok r.1)) (s : σ) :
  Faithful fun p => (p.through meaning s).bind f
  := by
  intro p notes ending h
  obtain ⟨q, hp, rfl⟩ | ⟨r, first, rest, hp, hrest, rfl⟩ := h.of_bind
  · exact ⟨.error q, hp.of_through hmeaning, rfl⟩
  · obtain ⟨rfl, hends⟩ := hf r hrest
    rw [List.append_nil]
    exact ⟨.ok r.1, hp.of_through hmeaning, hends⟩

/-- A panic that is caught may be a failure. -/
theorem recover
    {f : Payload → Program ((Ambient ν).sum T) (Except ε α)}
    (hf : ∀ q {notes ending}, (f q).Traces notes ending →
      notes = [] ∧ succeeded ending = false) :
  Faithful fun p => p.recover f
  := by
  intro p notes ending h
  obtain ⟨result, hp, rfl⟩ | ⟨q, first, rest, hp, hrest, rfl⟩ := h.of_recover
  · exact ⟨.ok result, hp, rfl⟩
  · obtain ⟨rfl, hends⟩ := hf q hrest
    rw [List.append_nil]
    exact ⟨.error q, hp, hends⟩

end Faithful

/-- Ends as has been decided, or goes on. -/
def proceed (call : γ → Program ((Ambient ν).sum T) (Except ε α)) :
    Except (Except ε α) γ → Program ((Ambient ν).sum T) (Except ε α)
  | .error result => .done result
  | .ok g => call g

/-- A part leaves no notes if it silently comes to a decision whether to end or to call the callee,
and if it calls it, ends as that does. -/
theorem Records.of_gate
    {wrap : Wrap χ ν T ε α} (decision : χ → Program ((Ambient ν).sum T) (Except (Except ε α) γ))
    (finish : γ → Program ((Ambient ν).sum T) (Except ε α) →
      Program ((Ambient ν).sum T) (Except ε α))
    (passed : γ → χ) (hdecision : ∀ x, (decision x).Uses Program.Unnoted)
    (hfinish : ∀ g, Faithful (finish g))
    (hwrap : ∀ next x, wrap next x
      = (decision x).bind (proceed fun g => finish g (next (passed g)))) :
  Records wrap [] []
  := by
  intro next x notes ending htraces
  rw [hwrap] at htraces
  obtain ⟨q, hpanic, rfl⟩ | ⟨decided, first, rest, hdecided, hrest, rfl⟩ := htraces.of_bind
  · obtain rfl := hpanic.notes_eq_nil (hdecision x)
    refine .inl ⟨[], rfl, fun other => ?_⟩
    rw [hwrap]
    exact hpanic.bind_error _
  · obtain rfl := hdecided.notes_eq_nil (hdecision x)
    cases decided with
    | error result =>
      cases hrest
      refine .inl ⟨[], rfl, fun other => ?_⟩
      rw [hwrap]
      exact hdecided.bind (.done result)
    | ok g =>
      obtain ⟨result, hnext, hsucceeded⟩ := hfinish g _ _ _ hrest
      refine .inr ⟨passed g, rest, result, hnext, hsucceeded, ?_⟩
      simp

theorem records_id :
  Records (fun next : Callee χ ν T ε α => next) [] []
  :=
  .of_gate (fun x => .done (.ok x)) (fun _ p => p) (fun x => x) (fun _ => trivial) (fun _ => .id)
    fun _ _ => rfl

/-- What is put around a callee and leaves no notes. -/
def Recorder.silent (wrap : Wrap χ ν T ε α) (h : Records wrap [] []) : Recorder χ ν T ε α :=
  ⟨wrap, [], [], h⟩

/-- A recorder that notes more. -/
def Recorder.noting (enter leave : ν) (r : Recorder χ ν T ε α) : Recorder χ ν T ε α :=
  ⟨recorded enter leave r.wrap, enter :: r.enter, leave :: r.leave, r.records.recorded enter leave⟩

/-! ### Nests -/

/-- Parts around a callee, the first outermost. -/
def nest (wraps : List (Wrap χ ν T ε α)) (callee : Callee χ ν T ε α) : Callee χ ν T ε α :=
  wraps.foldr (fun wrap next => wrap next) callee

/-- What recorders note around a block: all of them are entered, and left again the other way round
if it is a success. -/
def around (recorders : List (Recorder χ ν T ε α)) (block : List ν) (success : Bool) : List ν :=
  recorders.flatMap Recorder.enter ++ block
    ++ if success then recorders.reverse.flatMap Recorder.leave else []

theorem around_nil (block : List ν) (success : Bool) :
  around ([] : List (Recorder χ ν T ε α)) block success = block
  := by
  cases success <;> simp [around]

theorem around_cons
    (r : Recorder χ ν T ε α) (rs : List (Recorder χ ν T ε α)) (block : List ν) (success : Bool) :
  around (r :: rs) block success
    = r.enter ++ around rs block success ++ if success then r.leave else []
  := by
  cases success <;> simp [around]

/-- What is noted, and how it ends, when a callee is called through recorders; `Block` are the
notes and endings of the callee itself. -/
inductive Nested (recorders : List (Recorder χ ν T ε α))
    (Block : List ν → Except Payload (Except ε α) → Prop) :
    List ν → Except Payload (Except ε α) → Prop where
  /-- The callee is reached. -/
  | reached {block : List ν} {result ending : Except Payload (Except ε α)}
    (called : Block block result) (ends : succeeded ending = succeeded result) :
    Nested recorders Block (around recorders block (succeeded ending)) ending
  /-- One of the recorders ends by itself, whatever is behind it. -/
  | stopped {outer inner : List (Recorder χ ν T ε α)} {r : Recorder χ ν T ε α} {x : χ}
    {own : List ν} {result ending : Except Payload (Except ε α)}
    (parts : recorders = outer ++ r :: inner)
    (stops : ∀ next, (r.wrap next x).Traces (r.enter ++ own) result)
    (ends : succeeded ending = succeeded result) :
    Nested recorders Block (around outer (r.enter ++ own) (succeeded ending)) ending

namespace Nested

variable {rs : List (Recorder χ ν T ε α)}
  {Block Block' : List ν → Except Payload (Except ε α) → Prop} {notes : List ν}
  {result ending : Except Payload (Except ε α)}

theorem mono (h : Nested rs Block notes ending) (hblock : ∀ b r, Block b r → Block' b r) :
  Nested rs Block' notes ending
  := by
  cases h with
  | reached called ends => exact .reached (hblock _ _ called) ends
  | stopped parts stops ends => exact .stopped parts stops ends

/-- One more recorder is put around the others. -/
theorem cons
    (h : Nested rs Block notes result) (r : Recorder χ ν T ε α)
    (hends : succeeded ending = succeeded result) :
  Nested (r :: rs) Block (r.enter ++ notes ++ if succeeded ending then r.leave else []) ending
  := by
  cases h with
  | reached called ends =>
    rw [← hends, ← around_cons]
    exact .reached called (hends.trans ends)
  | stopped parts stops ends =>
    rw [← hends, ← around_cons]
    exact .stopped (congrArg (List.cons r) parts) stops (hends.trans ends)

/-- Recorders that are put around one another record in the order of a nest. -/
theorem of_traces
    {callee : Callee χ ν T ε α} {x : χ}
    (h : (nest (rs.map Recorder.wrap) callee x).Traces notes ending) :
  Nested rs (fun block result => ∃ y, (callee y).Traces block result) notes ending
  := by
  -- The induction is on the recorders: the first one either stops, or passes on to the others.
  induction rs generalizing x notes ending with
  | nil =>
    rw [← around_nil (χ := χ) (T := T) (ε := ε) (α := α) notes (succeeded ending)]
    exact .reached ⟨x, h⟩ rfl
  | cons r rs ih =>
    obtain ⟨own, rfl, hstops⟩ | ⟨y, own, result, hnext, hends, rfl⟩ := r.records _ _ _ _ h
    · rw [← around_nil (χ := χ) (T := T) (ε := ε) (α := α) (r.enter ++ own) (succeeded ending)]
      exact .stopped (List.nil_append _).symm hstops rfl
    · exact (ih hnext).cons r hends

end Nested

/-! ### Callees that are attended -/

/-- Notes how a program ends. -/
def noteEnd (ended : Except Payload α → ν) :
    Program ((Ambient ν).sum T) α → Program ((Ambient ν).sum T) α
  | .done a => .step (.inl (.note (ended (.ok a)))) fun (_ : Unit) => .done a
  | .panic q => .step (.inl (.note (ended (.error q)))) fun (_ : Unit) => .panic q
  | .step op next => .step op fun answer => noteEnd ended (next answer)

theorem traces_noteEnd
    {ended : Except Payload α → ν} {p : Program ((Ambient ν).sum T) α} {notes : List ν}
    {ending : Except Payload α} (h : (noteEnd ended p).Traces notes ending) :
  ∃ own, p.Traces own ending ∧ notes = own ++ [ended ending]
  := by
  induction p generalizing notes with
  | done a =>
    cases h with
    | step _ h =>
      cases h
      exact ⟨[], .done a, rfl⟩
  | panic q =>
    cases h with
    | step _ h =>
      cases h
      exact ⟨[], .panic q, rfl⟩
  | step op next ih =>
    cases h with
    | step answer h =>
      obtain ⟨own, hown, rfl⟩ := ih answer h
      exact ⟨notesOf op ++ own, .step answer hown, (List.append_assoc ..).symm⟩

/-- Notes that a callee is called, and how it ends. -/
def attended (called : χ → ν) (ended : Except Payload (Except ε α) → ν)
    (callee : Callee χ ν T ε α) : Callee χ ν T ε α := fun x =>
  .step (.inl (.note (called x))) fun (_ : Unit) => noteEnd ended (callee x)

/-- What is noted of a callee that is attended, and how it ends. -/
def Attended (called : χ → ν) (ended : Except Payload (Except ε α) → ν)
    (callee : Callee χ ν T ε α) (block : List ν) (result : Except Payload (Except ε α)) : Prop :=
  ∃ x own, (callee x).Traces own result ∧ block = called x :: (own ++ [ended result])

theorem Nested.of_traces_attended
    {rs : List (Recorder χ ν T ε α)} {called : χ → ν} {ended : Except Payload (Except ε α) → ν}
    {callee : Callee χ ν T ε α} {x : χ} {notes : List ν} {ending : Except Payload (Except ε α)}
    (h : (nest (rs.map Recorder.wrap) (attended called ended callee) x).Traces notes ending) :
  Nested rs (Attended called ended callee) notes ending
  := by
  apply (Nested.of_traces h).mono
  rintro block result ⟨y, hy⟩
  cases hy with
  | step _ hend =>
    obtain ⟨own, hown, rfl⟩ := traces_noteEnd hend
    exact ⟨y, own, hown, rfl⟩

end StreamCall
