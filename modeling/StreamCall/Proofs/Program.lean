import StreamCall.Program

/-!
# Laws of programs

Giving operations a meaning goes along with composition (`through_bind`, `settle_bind`).  So
does catching a panic, once panics are made results by `attempt` (`recover_bind`).

What a program may do is stated by predicates that composition keeps: `Uses` bounds its
operations, `NoPanic` says that it never panics, and `Safe` says both.  `Obeys` bounds them as
long as the answers are what the program relies on, and `Yields` says what they end with.  A program
that never panics need not be caught (`NoPanic.recover`).
-/

namespace StreamCall.Program

variable {S T : Signature} {α β γ σ : Type}

/-! ### Composition -/

theorem done_bind (a : α) (f : α → Program S β) :
  (Program.done a).bind f = f a
  :=
  rfl

theorem step_bind (op : S.Op) (next : S.Answer op → Program S α) (f : α → Program S β) :
  (Program.step op next).bind f = .step op fun answer => (next answer).bind f
  :=
  rfl

theorem step_congr (op : S.Op) {next next' : S.Answer op → Program S α}
    (h : ∀ answer, next answer = next' answer) :
  Program.step op next = .step op next'
  := by
  rw [funext h]

theorem bind_congr (p : Program S α) {f g : α → Program S β} (h : ∀ a, f a = g a) :
  p.bind f = p.bind g
  := by
  rw [funext h]

theorem inl_bind (p : Program S α) (f : α → Program S β) :
  ((p.bind f).inl : Program (S.sum T) β) = p.inl.bind fun a => (f a).inl
  := by
  induction p with
  | done a => rfl
  | panic q => rfl
  | step op next ih => exact step_congr (S := S.sum T) (.inl op) ih

theorem inr_bind (p : Program T α) (f : α → Program T β) :
  ((p.bind f).inr : Program (S.sum T) β) = p.inr.bind fun a => (f a).inr
  := by
  induction p with
  | done a => rfl
  | panic q => rfl
  | step op next ih => exact step_congr (S := S.sum T) (.inr op) ih

section Running

variable {answer : σ → (op : S.Op) → Option (S.Answer op × σ)} {s s' : σ} {op : S.Op}

theorem run_step
    {a : S.Answer op} (h : answer s op = some (a, s')) (next : S.Answer op → Program S α) :
  (Program.step op next).run answer s = (next a).run answer s'
  := by
  rw [run, h]

theorem run_step_waiting (h : answer s op = none) (next : S.Answer op → Program S α) :
  (Program.step op next).run answer s = (.waiting, s)
  := by
  rw [run, h]

end Running

section Meaning

variable (meaning : σ → (op : S.Op) → Program T (S.Answer op × σ))

/-- Giving operations a meaning goes along with composition. -/
theorem through_bind (p : Program S α) (f : α → Program S β) (s : σ) :
  (p.bind f).through meaning s
    = (p.through meaning s).bind fun r => (f r.1).through meaning r.2
  := by
  induction p generalizing s with
  | done a => rfl
  | panic q => rfl
  | step op next ih => simp only [bind, through, ih, bind_assoc]

/-- As `through_bind`; after a panic nothing more happens. -/
theorem settle_bind (p : Program S α) (f : α → Program S β) (s : σ) :
  (p.bind f).settle meaning s
    = (p.settle meaning s).bind fun r =>
      match r.1 with
      | .ok a => (f a).settle meaning r.2
      | .error q => .done (.error q, r.2)
  := by
  induction p generalizing s with
  | done a => rfl
  | panic q => rfl
  | step op next ih => simp only [bind, settle, ih, bind_assoc]

end Meaning

/-! ### Panics -/

/-- A program whose panics are results. -/
def attempt : Program S α → Program S (Except Payload α)
  | .done a => .done (.ok a)
  | .panic q => .done (.error q)
  | .step op next => .step op fun answer => (next answer).attempt

/-- Catching goes along with composition. -/
theorem recover_bind (p : Program S α) (f : α → Program S β) (g : Payload → Program S β) :
  (p.bind f).recover g
    = p.attempt.bind fun r =>
      match r with
      | .ok a => (f a).recover g
      | .error q => g q
  := by
  induction p with
  | done a => rfl
  | panic q => rfl
  | step op next ih => simp only [bind, recover, attempt, ih]

/-- A caught panic leaves behind what had been done before. -/
theorem run_recover
    (answer : σ → (op : S.Op) → Option (S.Answer op × σ)) (p : Program S α)
    (f : Payload → Program S α) (s : σ) :
  (p.recover f).run answer s =
    match p.run answer s with
    | (.done a, s) => (.done a, s)
    | (.panicked q, s) => (f q).run answer s
    | (.waiting, s) => (.waiting, s)
  := by
  induction p generalizing s with
  | done a => rfl
  | panic q => rfl
  | step op next ih =>
    simp only [recover, run]
    cases answer s op with
    | none => rfl
    | some r => exact ih r.1 r.2

/-- What settles a program catches its panics first. -/
theorem settle_eq_through
    (meaning : σ → (op : S.Op) → Program T (S.Answer op × σ)) (p : Program S α) (s : σ) :
  p.settle meaning s = p.attempt.through meaning s
  := by
  induction p generalizing s with
  | done a => rfl
  | panic q => rfl
  | step op next ih => exact bind_congr _ fun r => ih r.1 r.2

theorem attempt_inl (p : Program S α) :
  (p.inl : Program (S.sum T) α).attempt = p.attempt.inl
  := by
  induction p with
  | done a => rfl
  | panic q => rfl
  | step op next ih => exact step_congr (S := S.sum T) (.inl op) ih

/-- A program that never panics. -/
def NoPanic : Program S α → Prop
  | .done _ => True
  | .panic _ => False
  | .step _ next => ∀ answer, (next answer).NoPanic

theorem NoPanic.bind {p : Program S α} {f : α → Program S β} (hp : p.NoPanic)
    (hf : ∀ a, (f a).NoPanic) :
  (p.bind f).NoPanic
  := by
  induction p with
  | done a => exact hf a
  | panic q => cases hp
  | step op next ih => exact fun answer => ih answer (hp answer)

theorem NoPanic.inr {p : Program T α} (hp : p.NoPanic) :
  (p.inr : Program (S.sum T) α).NoPanic
  := by
  induction p with
  | done a => trivial
  | panic q => cases hp
  | step op next ih => exact fun answer => ih answer (hp answer)

/-- A program that never panics need not be caught. -/
theorem NoPanic.recover {p : Program S α} (hp : p.NoPanic) (g : Payload → Program S α) :
  p.recover g = p
  := by
  induction p with
  | done a => rfl
  | panic q => cases hp
  | step op next ih =>
    exact step_congr op fun answer => ih answer (hp answer)

/-! ### Operations that are used -/

/-- A program all of whose operations are among the given ones. -/
def Uses (allowed : S.Op → Prop) : Program S α → Prop
  | .done _ => True
  | .panic _ => True
  | .step op next => allowed op ∧ ∀ answer, (next answer).Uses allowed

theorem Uses.bind {allowed : S.Op → Prop} {p : Program S α} {f : α → Program S β}
    (hp : p.Uses allowed) (hf : ∀ a, (f a).Uses allowed) :
  (p.bind f).Uses allowed
  := by
  induction p with
  | done a => exact hf a
  | panic q => trivial
  | step op next ih => exact ⟨hp.1, fun answer => ih answer (hp.2 answer)⟩

theorem Uses.mono {allowed allowed' : S.Op → Prop} {p : Program S α} (hp : p.Uses allowed)
    (h : ∀ op, allowed op → allowed' op) :
  p.Uses allowed'
  := by
  induction p with
  | done a => trivial
  | panic q => trivial
  | step op next ih => exact ⟨h op hp.1, fun answer => ih answer (hp.2 answer)⟩

theorem Uses.through
    {allowed : S.Op → Prop} {allowed' : T.Op → Prop}
    {meaning : σ → (op : S.Op) → Program T (S.Answer op × σ)}
    (hmeaning : ∀ s op, allowed op → (meaning s op).Uses allowed') {p : Program S α}
    (hp : p.Uses allowed) (s : σ) :
  (p.through meaning s).Uses allowed'
  := by
  induction p generalizing s with
  | done a => trivial
  | panic q => trivial
  | step op next ih => exact (hmeaning s op hp.1).bind fun r => ih r.1 (hp.2 r.1) r.2

theorem Uses.recover {allowed : S.Op → Prop} {p : Program S α} {f : Payload → Program S α}
    (hp : p.Uses allowed) (hf : ∀ q, (f q).Uses allowed) :
  (p.recover f).Uses allowed
  := by
  induction p with
  | done a => trivial
  | panic q => exact hf q
  | step op next ih => exact ⟨hp.1, fun answer => ih answer (hp.2 answer)⟩

theorem uses_inl (p : Program S α) :
  (p.inl : Program (S.sum T) α).Uses fun (op : S.Op ⊕ T.Op) => op.isLeft = true
  := by
  induction p with
  | done a => trivial
  | panic q => trivial
  | step op next ih => exact ⟨rfl, ih⟩

theorem Uses.inr {allowed : T.Op → Prop} {p : Program T α} (hp : p.Uses allowed) :
  (p.inr : Program (S.sum T) α).Uses fun (op : S.Op ⊕ T.Op) => ∃ o, op = .inr o ∧ allowed o
  := by
  induction p with
  | done a => trivial
  | panic q => trivial
  | step op next ih => exact ⟨⟨op, rfl, hp.1⟩, fun answer => ih answer (hp.2 answer)⟩

/-! ### What is left of a program -/

/-- A program that has ended or panicked. -/
def IsOver : Program S α → Prop
  | .step _ _ => False
  | _ => True

/-- Whether a program is what is left of another one after some answers. -/
inductive Reaches : Program S α → Program S α → Prop where
  | refl (p : Program S α) : Reaches p p
  | step {op : S.Op} {next : S.Answer op → Program S α} (answer : S.Answer op) {q : Program S α}
    (h : Reaches (next answer) q) : Reaches (.step op next) q

theorem Reaches.trans {p q r : Program S α} (h : p.Reaches q) (h' : q.Reaches r) :
  p.Reaches r
  := by
  induction h with
  | refl p => exact h'
  | step answer _ ih => exact .step answer (ih h')

/-- One more operation is answered. -/
theorem Reaches.next
    {p : Program S α} {op : S.Op} {next : S.Answer op → Program S α}
    (h : p.Reaches (.step op next)) (answer : S.Answer op) :
  p.Reaches (next answer)
  :=
  h.trans (.step answer (.refl _))

/-! ### Programs that keep to terms -/

/-- What a program may ask for, and what it relies on about the answers. -/
structure Terms (S : Signature) where
  allows : S.Op → Prop
  tells : (op : S.Op) → S.Answer op → Prop

/-- A program that, told what it relies on, asks for nothing but what it may, and whose result is
as wanted. -/
def Obeys (terms : Terms S) (wanted : α → Prop) : Program S α → Prop
  | .done a => wanted a
  | .panic _ => True
  | .step op next =>
    terms.allows op ∧ ∀ answer, terms.tells op answer → (next answer).Obeys terms wanted

namespace Obeys

variable {terms : Terms S} {terms' : Terms T} {wanted : α → Prop}

theorem bind
    {wanted' : β → Prop} {p : Program S α} {f : α → Program S β} (hp : p.Obeys terms wanted)
    (hf : ∀ a, wanted a → (f a).Obeys terms wanted') :
  (p.bind f).Obeys terms wanted'
  := by
  induction p with
  | done a => exact hf a hp
  | panic q => trivial
  | step op next ih => exact ⟨hp.1, fun answer htold => ih answer (hp.2 answer htold)⟩

theorem recover
    {p : Program S α} {f : Payload → Program S α} (hp : p.Obeys terms wanted)
    (hf : ∀ q, (f q).Obeys terms wanted) :
  (p.recover f).Obeys terms wanted
  := by
  induction p with
  | done a => exact hp
  | panic q => exact hf q
  | step op next ih => exact ⟨hp.1, fun answer htold => ih answer (hp.2 answer htold)⟩

/-- Operations may be given a meaning that tells what the program relies on. -/
theorem through
    {meaning : σ → (op : S.Op) → Program T (S.Answer op × σ)}
    (hmeaning : ∀ s op, terms.allows op →
      (meaning s op).Obeys terms' fun r => terms.tells op r.1)
    {p : Program S α} (hp : p.Obeys terms wanted) (s : σ) :
  (p.through meaning s).Obeys terms' fun r => wanted r.1
  := by
  induction p generalizing s with
  | done a => exact hp
  | panic q => trivial
  | step op next ih =>
    exact (hmeaning s op hp.1).bind fun r htold => ih r.1 (hp.2 r.1 htold) r.2

theorem inl
    {terms' : Terms (S.sum T)} (hallows : ∀ op, terms.allows op → terms'.allows (.inl op))
    (htells : ∀ (op : S.Op) (answer : S.Answer op), terms'.tells (.inl op) answer →
      terms.tells op answer)
    {p : Program S α} (hp : p.Obeys terms wanted) :
  (p.inl : Program (S.sum T) α).Obeys terms' wanted
  := by
  induction p with
  | done a => exact hp
  | panic q => trivial
  | step op next ih =>
    exact ⟨hallows op hp.1, fun answer htold =>
      ih answer (hp.2 answer (htells op answer htold))⟩

/-- A program may use operations that are all allowed as it likes. -/
theorem inr {terms' : Terms (S.sum T)} (h : ∀ op, terms'.allows (.inr op)) (p : Program T α) :
  (p.inr : Program (S.sum T) α).Obeys terms' fun _ => True
  := by
  induction p with
  | done a => trivial
  | panic q => trivial
  | step op next ih => exact ⟨h op, fun answer _ => ih answer⟩

end Obeys

/-! ### What programs yield -/

/-- A program whose result, if there is one, is as wanted. -/
def Yields (wanted : α → Prop) : Program S α → Prop
  | .done a => wanted a
  | .panic _ => True
  | .step _ next => ∀ answer, (next answer).Yields wanted

namespace Yields

variable {wanted wanted' : α → Prop} {p : Program S α}

theorem trivially (p : Program S α) :
  p.Yields fun _ => True
  := by
  induction p with
  | done a => trivial
  | panic q => trivial
  | step op next ih => exact ih

theorem mono (hp : p.Yields wanted) (h : ∀ a, wanted a → wanted' a) :
  p.Yields wanted'
  := by
  induction p with
  | done a => exact h a hp
  | panic q => trivial
  | step op next ih => exact fun answer => ih answer (hp answer)

theorem bind {wanted' : β → Prop} {f : α → Program S β} (hp : p.Yields wanted)
    (hf : ∀ a, wanted a → (f a).Yields wanted') :
  (p.bind f).Yields wanted'
  := by
  induction p with
  | done a => exact hf a hp
  | panic q => trivial
  | step op next ih => exact fun answer => ih answer (hp answer)

/-- What every operation keeps of a state, a program keeps. -/
theorem through
    {meaning : σ → (op : S.Op) → Program T (S.Answer op × σ)} (kept : σ → Prop)
    (hmeaning : ∀ s op, kept s → (meaning s op).Yields fun r => kept r.2)
    (hp : p.Yields wanted) {s : σ} (h : kept s) :
  (p.through meaning s).Yields fun r => wanted r.1 ∧ kept r.2
  := by
  induction p generalizing s with
  | done a => exact ⟨hp, h⟩
  | panic q => trivial
  | step op next ih => exact (hmeaning s op h).bind fun r hr => ih r.1 (hp r.1) hr

/-- Only what there can be as a result has to be gone on with alike. -/
theorem bind_congr {f g : α → Program S β} (hp : p.Yields wanted)
    (h : ∀ a, wanted a → f a = g a) :
  p.bind f = p.bind g
  := by
  induction p with
  | done a => exact h a hp
  | panic q => rfl
  | step op next ih => exact step_congr op fun answer => ih answer (hp answer)

/-- What a program yields is what a run of it ends with. -/
theorem of_run
    {answer : σ → (op : S.Op) → Option (S.Answer op × σ)} (hp : p.Yields wanted) {s s' : σ} {a : α}
    (h : p.run answer s = (.done a, s')) :
  wanted a
  := by
  induction p generalizing s with
  | done b =>
    cases h
    exact hp
  | panic q => cases h
  | step op next ih =>
    cases hanswer : answer s op with
    | none =>
      rw [run_step_waiting hanswer] at h
      cases h
    | some r =>
      rw [run_step hanswer] at h
      exact ih r.1 (hp r.1) h

end Yields

/-! ### Safe programs -/

/-- A program that never panics and all of whose operations are among the given ones. -/
def Safe (A : S.Op → Prop) : Program S α → Prop
  | .done _ => True
  | .panic _ => False
  | .step op next => A op ∧ ∀ answer, (next answer).Safe A

namespace Safe

variable {A : S.Op → Prop} {B : T.Op → Prop}

theorem uses {p : Program S α} (hp : p.Safe A) :
  p.Uses A
  := by
  induction p with
  | done a => trivial
  | panic q => cases hp
  | step op next ih => exact ⟨hp.1, fun answer => ih answer (hp.2 answer)⟩

theorem bind {p : Program S α} {f : α → Program S β} (hp : p.Safe A) (hf : ∀ a, (f a).Safe A) :
  (p.bind f).Safe A
  := by
  induction p with
  | done a => exact hf a
  | panic q => cases hp
  | step op next ih => exact ⟨hp.1, fun answer => ih answer (hp.2 answer)⟩

theorem through
    {meaning : σ → (op : S.Op) → Program T (S.Answer op × σ)}
    (hmeaning : ∀ s op, A op → (meaning s op).Safe B) {p : Program S α} (hp : p.Safe A) (s : σ) :
  (p.through meaning s).Safe B
  := by
  induction p generalizing s with
  | done a => trivial
  | panic q => cases hp
  | step op next ih => exact (hmeaning s op hp.1).bind fun r => ih r.1 (hp.2 r.1) r.2

theorem attempt (p : Program S α) :
  p.attempt.Safe fun _ => True
  := by
  induction p with
  | done a => trivial
  | panic q => trivial
  | step op next ih => exact ⟨trivial, ih⟩

theorem inr {A : (S.sum T).Op → Prop} {p : Program T α} (hp : p.Safe fun op => A (.inr op)) :
  (p.inr : Program (S.sum T) α).Safe A
  := by
  induction p with
  | done a => trivial
  | panic q => cases hp
  | step op next ih => exact ⟨hp.1, fun answer => ih answer (hp.2 answer)⟩

end Safe

end StreamCall.Program
