import StreamCall.Ambient
import StreamCall.Proofs.Program

/-!
# Traces

What a program leaves of notes, and how it ends, depends on what its operations are answered.
`Traces` says which notes and which ending go together, for some answers.  It goes along with
composition (`Traces.of_bind`), with operations that are given a meaning (`Traces.of_through`) and
with panics that are caught (`Traces.of_recover`).  A run leaves the notes of a trace
(`Traces.of_run`).
-/

namespace StreamCall

variable {ν α β σ : Type} {T U : Signature}

/-- The notes that an operation leaves. -/
def notesOf : ((Ambient ν).sum T).Op → List ν
  | .inl (.note note) => [note]
  | _ => []

/-- How a run ends. -/
def outcomeOf : Except Payload α → Outcome α
  | .ok a => .done a
  | .error q => .panicked q

namespace Program

/-- Whether a program, given some answers, leaves some notes and ends in some way. -/
inductive Traces : Program ((Ambient ν).sum T) α → List ν → Except Payload α → Prop where
  | done (a : α) : Traces (.done a) [] (.ok a)
  | panic (q : Payload) : Traces (.panic q) [] (.error q)
  | step {op : ((Ambient ν).sum T).Op} {next : ((Ambient ν).sum T).Answer op → Program _ α}
    (answer : ((Ambient ν).sum T).Answer op) {notes : List ν} {ending : Except Payload α}
    (h : Traces (next answer) notes ending) : Traces (.step op next) (notesOf op ++ notes) ending

/-- Whether an operation leaves no note. -/
def Unnoted (op : ((Ambient ν).sum T).Op) : Prop := notesOf op = []

namespace Traces

variable {p : Program ((Ambient ν).sum T) α} {notes : List ν} {ending : Except Payload α}

theorem note (h : p.Traces notes ending) (note : ν) :
  Traces (T := T) (.step (.inl (.note note)) fun (_ : Unit) => p) (note :: notes) ending
  :=
  @Traces.step ν α T (.inl (.note note)) (fun _ => p) () notes ending h

theorem bind
    {a : α} {f : α → Program ((Ambient ν).sum T) β} {rest : List ν} {ending : Except Payload β}
    (hp : p.Traces notes (.ok a)) (hf : (f a).Traces rest ending) :
  (p.bind f).Traces (notes ++ rest) ending
  := by
  induction p generalizing notes with
  | done b =>
    cases hp
    exact hf
  | panic q => cases hp
  | step op next ih =>
    cases hp with
    | step answer hp =>
      rw [List.append_assoc]
      exact .step answer (ih answer hp)

theorem bind_error
    {q : Payload} (hp : p.Traces notes (.error q)) (f : α → Program ((Ambient ν).sum T) β) :
  (p.bind f).Traces notes (.error q)
  := by
  induction p generalizing notes with
  | done b => cases hp
  | panic q =>
    cases hp
    exact .panic q
  | step op next ih =>
    cases hp with
    | step answer hp => exact .step answer (ih answer hp)

/-- A trace of a composed program is one of the first part, and one of the second if the first has
not panicked. -/
theorem of_bind
    {f : α → Program ((Ambient ν).sum T) β} {ending : Except Payload β}
    (h : (p.bind f).Traces notes ending) :
  (∃ q, p.Traces notes (.error q) ∧ ending = .error q)
    ∨ ∃ a first rest, p.Traces first (.ok a) ∧ (f a).Traces rest ending ∧ notes = first ++ rest
  := by
  induction p generalizing notes with
  | done a => exact .inr ⟨a, [], notes, .done a, h, rfl⟩
  | panic q =>
    cases h
    exact .inl ⟨q, .panic q, rfl⟩
  | step op next ih =>
    cases h with
    | step answer h =>
      obtain ⟨q, hp, rfl⟩ | ⟨a, first, rest, hp, hf, rfl⟩ := ih answer h
      · exact .inl ⟨q, .step answer hp, rfl⟩
      · exact .inr ⟨a, notesOf op ++ first, rest, .step answer hp, hf,
          (List.append_assoc ..).symm⟩

/-- A program of silent operations leaves no notes. -/
theorem notes_eq_nil (h : p.Traces notes ending) (hp : p.Uses Unnoted) :
  notes = []
  := by
  induction h with
  | done a => rfl
  | panic q => rfl
  | step answer _ ih =>
    rw [ih (hp.2 answer), List.append_nil]
    exact hp.1

theorem exists_ok (h : p.Traces notes ending) {A : ((Ambient ν).sum T).Op → Prop}
    (hp : p.Safe A) :
  ∃ a, ending = .ok a
  := by
  induction h with
  | done a => exact ⟨a, rfl⟩
  | panic q => cases hp
  | step answer _ ih => exact ih (hp.2 answer)

/-- Operations may be given a meaning that notes what they note. -/
theorem of_through
    {meaning : σ → (op : ((Ambient ν).sum T).Op) →
      Program ((Ambient ν).sum U) (((Ambient ν).sum T).Answer op × σ)}
    (hmeaning : ∀ s op {notes ending}, (meaning s op).Traces notes ending →
      notes = notesOf op ∧ ∃ r, ending = .ok r)
    {s : σ} {ending : Except Payload (α × σ)} (h : (p.through meaning s).Traces notes ending) :
  p.Traces notes (ending.map Prod.fst)
  := by
  induction p generalizing s notes with
  | done a =>
    cases h
    exact .done a
  | panic q =>
    cases h
    exact .panic q
  | step op next ih =>
    obtain ⟨q, hop, -⟩ | ⟨⟨answer, s'⟩, first, rest, hop, hnext, rfl⟩ := of_bind h
    · obtain ⟨-, r, hr⟩ := hmeaning s op hop
      cases hr
    · obtain ⟨rfl, -⟩ := hmeaning s op hop
      exact .step answer (ih answer hnext)

/-- What catches a panic comes behind it. -/
theorem of_recover {f : Payload → Program ((Ambient ν).sum T) α}
    (h : (p.recover f).Traces notes ending) :
  (∃ a, p.Traces notes (.ok a) ∧ ending = .ok a)
    ∨ ∃ q first rest, p.Traces first (.error q) ∧ (f q).Traces rest ending ∧ notes = first ++ rest
  := by
  induction p generalizing notes with
  | done a =>
    cases h
    exact .inl ⟨a, .done a, rfl⟩
  | panic q => exact .inr ⟨q, [], notes, .panic q, h, rfl⟩
  | step op next ih =>
    cases h with
    | step answer h =>
      obtain ⟨a, hp, rfl⟩ | ⟨q, first, rest, hp, hf, rfl⟩ := ih answer h
      · exact .inl ⟨a, .step answer hp, rfl⟩
      · exact .inr ⟨q, notesOf op ++ first, rest, .step answer hp, hf,
          (List.append_assoc ..).symm⟩

/-- A run that ends leaves the notes of a trace behind those that were there. -/
theorem of_run
    {answer : σ → (op : ((Ambient ν).sum T).Op) → Option (((Ambient ν).sum T).Answer op × σ)}
    {noted : σ → List ν}
    (hanswer : ∀ {s op a s'}, answer s op = some (a, s') → noted s' = noted s ++ notesOf op)
    {s t : σ} (h : p.run answer s = (outcomeOf ending, t)) :
  ∃ notes, p.Traces notes ending ∧ noted t = noted s ++ notes
  := by
  induction p generalizing s with
  | done a =>
    cases ending with
    | error q => cases h
    | ok b =>
      cases h
      exact ⟨[], .done a, (List.append_nil _).symm⟩
  | panic q =>
    cases ending with
    | ok b => cases h
    | error q =>
      cases h
      exact ⟨[], .panic q, (List.append_nil _).symm⟩
  | step op next ih =>
    cases hop : answer s op with
    | none =>
      rw [run_step_waiting hop] at h
      cases ending <;> cases h
    | some r =>
      rw [run_step hop] at h
      obtain ⟨notes, hnext, hnoted⟩ := ih r.1 h
      refine ⟨notesOf op ++ notes, .step r.1 hnext, ?_⟩
      rw [hnoted, hanswer hop, List.append_assoc]

end Traces

end Program

end StreamCall
