import StreamCall.Panic

/-!
# Programs

A program is what a handler does: a tree that asks its surroundings for one operation after
another and goes on with each answer, until it is done or panics.  A `Signature` lists the
operations.  `Program.through` gives the operations of one signature a meaning in another,
with a state carried along, and `Program.run` answers them all.

Running goes along with composition: `bind_assoc` and `run_bind` are the laws used most.
-/

namespace StreamCall

/-- Operations, and the type of each one's answer. -/
structure Signature where
  Op : Type
  Answer : Op → Type

/-- The operations of two signatures together. -/
def Signature.sum (S T : Signature) : Signature :=
  ⟨S.Op ⊕ T.Op, Sum.elim S.Answer T.Answer⟩

/-- A program with a result of type `α`. -/
inductive Program (S : Signature) (α : Type) where
  | done (value : α)
  | panic (payload : Payload)
  | step (op : S.Op) (next : S.Answer op → Program S α)

/-- How a run of a program ends. A run waits when an operation gets no answer. -/
inductive Outcome (α : Type) where
  | done (value : α)
  | panicked (payload : Payload)
  | waiting
deriving Repr

namespace Program

variable {S T : Signature} {α β γ σ : Type}

/-- Goes on with the result of a program. -/
def bind (p : Program S α) (f : α → Program S β) : Program S β :=
  match p with
  | .done a => f a
  | .panic q => .panic q
  | .step op next => .step op fun answer => (next answer).bind f

instance : Monad (Program S) where
  pure := .done
  bind := bind

instance [Inhabited α] : Inhabited (Program S α) := ⟨.done default⟩

/-- One operation. -/
def perform (op : S.Op) : Program S (S.Answer op) :=
  .step op .done

/-- A program that uses the operations of the first of two signatures. -/
def inl : Program S α → Program (S.sum T) α
  | .done a => .done a
  | .panic q => .panic q
  | .step op next => .step (.inl op) fun answer => (next answer).inl

/-- A program that uses the operations of the second of two signatures. -/
def inr : Program T α → Program (S.sum T) α
  | .done a => .done a
  | .panic q => .panic q
  | .step op next => .step (.inr op) fun answer => (next answer).inr

/-- Gives each operation a meaning, which may depend on a state and change it. A panic ends
everything, so the state is lost. -/
def through (meaning : σ → (op : S.Op) → Program T (S.Answer op × σ)) (s : σ) :
    Program S α → Program T (α × σ)
  | .done a => .done (a, s)
  | .panic q => .panic q
  | .step op next => (meaning s op).bind fun r => (next r.1).through meaning r.2

/-- As `through`, but a panic ends the program alone and leaves the state behind. -/
def settle (meaning : σ → (op : S.Op) → Program T (S.Answer op × σ)) (s : σ) :
    Program S α → Program T (Except Payload α × σ)
  | .done a => .done (.ok a, s)
  | .panic q => .done (.error q, s)
  | .step op next => (meaning s op).bind fun r => (next r.1).settle meaning r.2

/-- Goes on with what a panic carries. -/
def recover (p : Program S α) (f : Payload → Program S α) : Program S α :=
  match p with
  | .done a => .done a
  | .panic q => f q
  | .step op next => .step op fun answer => (next answer).recover f

/-- Runs a program: every operation is answered from a state. -/
def run (answer : σ → (op : S.Op) → Option (S.Answer op × σ)) (s : σ) :
    Program S α → Outcome α × σ
  | .done a => (.done a, s)
  | .panic q => (.panicked q, s)
  | .step op next =>
    match answer s op with
    | none => (.waiting, s)
    | some (a, s) => (next a).run answer s

/-! ### Laws -/

theorem bind_done (p : Program S α) :
  p.bind .done = p
  := by
  induction p with
  | done a => rfl
  | panic q => rfl
  | step op next ih => simp [bind, ih]

theorem bind_assoc (p : Program S α) (f : α → Program S β) (g : β → Program S γ) :
  (p.bind f).bind g = p.bind fun a => (f a).bind g
  := by
  induction p with
  | done a => rfl
  | panic q => rfl
  | step op next ih => simp [bind, ih]

instance : LawfulMonad (Program S) :=
  LawfulMonad.mk' _ (fun p => bind_done p) (fun _ _ => rfl) bind_assoc

/-- A run of a composed program runs the parts one after the other. -/
theorem run_bind
    (answer : σ → (op : S.Op) → Option (S.Answer op × σ)) (p : Program S α)
    (f : α → Program S β) (s : σ) :
  (p.bind f).run answer s =
    match p.run answer s with
    | (.done a, s) => (f a).run answer s
    | (.panicked q, s) => (.panicked q, s)
    | (.waiting, s) => (.waiting, s)
  := by
  induction p generalizing s with
  | done a => rfl
  | panic q => rfl
  | step op next ih =>
    simp only [bind, run]
    cases answer s op with
    | none => rfl
    | some r => exact ih r.1 r.2

end Program

end StreamCall
