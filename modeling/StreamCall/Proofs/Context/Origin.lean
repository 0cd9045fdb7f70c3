import Mathlib.Data.List.Induction
import Mathlib.Data.List.InsertIdx
import StreamCall.Context.Family
import StreamCall.Proofs.Token

/-!
# Where contexts come from

Every member of a family has an `Origin`, which tells how it was derived from a fresh context.
`originsOf` reads the origins off the steps, without looking at a token or at a context.  They
tell all about the members (`members_keep_to_origins`): a member holds what was set last on the
way from its origin, and it has been cancelled if and only if a step cancelled the token that it
shares or one that this token was made below.

The proof goes from step to step (`Traced.step`).  What is carried along is said of contexts each
of which is known with its origin (`Sound`).  It holds of any part of them, so members may be
dropped, and there are two rules for one more: its token is that of a known context
(`Sound.derive`), or a fresh one (`Sound.grow`).
-/

namespace StreamCall.Context

/-! ### Origins -/

/-- What is made of a context under the same token. -/
inductive Change where
  /-- A context that only has the token. -/
  | renew
  | clone
  | withRequest (request : Request)
  | withRequestId (id : RequestId)
  | withBodyLimit (limit : Nat)

namespace Change

/-- The context that is made. -/
def make (c : Context) : Change → Context
  | .renew => .ofToken c.token
  | .clone => c
  | .withRequest request => c.withRequest request
  | .withRequestId id => c.withRequestId id
  | .withBodyLimit limit => c.withBodyLimit limit

theorem token_make (c : Context) (change : Change) :
  (change.make c).token = c.token
  := by
  cases change <;> rfl

/-- The request after the change. -/
def requestOver (held : Option Request) : Change → Option Request
  | .renew => none
  | .withRequest request => some request
  | _ => held

/-- The id after the change. -/
def requestIdOver (held : Option RequestId) : Change → Option RequestId
  | .renew => none
  | .withRequestId id => some id
  | _ => held

/-- The limit after the change. -/
def bodyLimitOver (held : Option Nat) : Change → Option Nat
  | .renew => none
  | .withBodyLimit limit => some limit
  | _ => held

end Change

/-- Where a context comes from.  Where a token was made, the origin has the number of the step. -/
inductive Origin where
  | fresh (step : Nat)
  | child (step : Nat) (source : Origin)
  | derived (source : Origin) (change : Change)

namespace Origin

/-- Where the token of the context was made. -/
def maker : Origin → Origin
  | .fresh step => .fresh step
  | .child step source => .child step source
  | .derived source _ => source.maker

/-- Where the token of the context was made, and those above it, the root's last. -/
def makers : Origin → List Origin
  | .fresh step => [.fresh step]
  | .child step source => .child step source :: source.makers
  | .derived source _ => source.makers

/-- The request that was set last, since there has been a fresh context. -/
def request : Origin → Option Request
  | .fresh _ => none
  | .child _ source => source.request
  | .derived source change => change.requestOver source.request

/-- The id that was set last, since there has been a fresh context. -/
def requestId : Origin → Option RequestId
  | .fresh _ => none
  | .child _ source => source.requestId
  | .derived source change => change.requestIdOver source.requestId

/-- The limit that was set last, since there has been a fresh context. -/
def bodyLimit : Origin → Option Nat
  | .fresh _ => none
  | .child _ source => source.bodyLimit
  | .derived source change => change.bodyLimitOver source.bodyLimit

/-- The number of the step at which the token of the context was made. -/
def madeAt : Origin → Nat
  | .fresh step => step
  | .child step _ => step
  | .derived source _ => source.madeAt

theorem maker_mem_makers (o : Origin) :
  o.maker ∈ o.makers
  := by
  induction o with
  | fresh step => exact List.mem_singleton_self _
  | child step source => exact List.mem_cons_self
  | derived source _ ih => exact ih

theorem sizeOf_le_of_mem_makers {m o : Origin} (h : m ∈ o.makers) :
  sizeOf m ≤ sizeOf o
  := by
  induction o with
  | fresh step =>
    obtain rfl := List.mem_singleton.mp h
    exact Nat.le_refl _
  | child step source ih =>
    rcases List.mem_cons.mp h with rfl | h
    · exact Nat.le_refl _
    · exact Nat.le_trans (ih h) (by rw [child.sizeOf_spec]; omega)
  | derived source _ ih => exact Nat.le_trans (ih h) (by rw [derived.sizeOf_spec]; omega)

/-- No token is above itself. -/
theorem child_not_mem_makers (step : Nat) (source : Origin) :
  .child step source ∉ source.makers
  := by
  intro h
  have hle := sizeOf_le_of_mem_makers h
  rw [child.sizeOf_spec] at hle
  omega

/-- All that is above a token which is above a context is above the context. -/
theorem makers_subset {m o : Origin} (h : m ∈ o.makers) :
  m.makers ⊆ o.makers
  := by
  induction o with
  | fresh step =>
    rw [List.mem_singleton.mp h]
    exact List.Subset.refl _
  | child step source ih =>
    rcases List.mem_cons.mp h with rfl | h
    · exact List.Subset.refl _
    · exact List.Subset.trans (ih h) (List.subset_cons_self _ _)
  | derived source _ ih => exact ih h

theorem makers_maker (o : Origin) :
  o.maker.makers = o.makers
  := by
  induction o with
  | fresh step | child step source => rfl
  | derived source _ ih => exact ih

/-- The token of a child is above neither what it was made below nor another child. -/
theorem child_not_mem_of_apart
    {o source : Origin} {step : Nat}
    (h : o.maker ∈ source.makers ∨ ∃ other, other ≠ step ∧ o.maker = .child other source) :
  .child step source ∉ o.makers
  := by
  rw [← makers_maker]
  rcases h with h | ⟨other, hother, h⟩
  · intro hmem
    exact child_not_mem_makers step source (makers_subset h hmem)
  · rw [h, makers, List.mem_cons, child.injEq]
    rintro (⟨rfl, -⟩ | hmem)
    · exact hother rfl
    · exact child_not_mem_makers step source hmem

end Origin

/-! ### The origins of a family -/

/-- The origin of a member, or that of a context which is fresh at the step if there is no member
of that number. -/
def memberOrigin (origins : List Origin) (step member : Nat) : Origin :=
  origins[member]?.getD (.fresh step)

/-- The origins of the members after a step that has a number. -/
def Step.trace (number : Nat) (origins : List Origin) : Step → List Origin
  | .background => origins ++ [.fresh number]
  | .sharing member => origins ++ [.derived (memberOrigin origins number member) .renew]
  | .clone member => origins ++ [.derived (memberOrigin origins number member) .clone]
  | .child member => origins ++ [.child number (memberOrigin origins number member)]
  | .withRequest member request =>
    origins ++ [.derived (memberOrigin origins number member) (.withRequest request)]
  | .withRequestId member id =>
    origins ++ [.derived (memberOrigin origins number member) (.withRequestId id)]
  | .withBodyLimit member limit =>
    origins ++ [.derived (memberOrigin origins number member) (.withBodyLimit limit)]
  | .cancel _ => origins
  | .drop member => origins.eraseIdx member

/-- The origins of the members after steps the first of which has a number. -/
def originsFrom (number : Nat) (origins : List Origin) : List Step → List Origin
  | [] => origins
  | step :: rest => originsFrom (number + 1) (step.trace number origins) rest

/-- The origins of the members after some steps. -/
def originsOf (steps : List Step) : List Origin := originsFrom 0 [] steps

/-- The origin of what a step after some others names. -/
def originAt (steps : List Step) (member : Nat) : Origin :=
  memberOrigin (originsOf steps) steps.length member

/-- Whether one of the steps cancelled a token that was made at one of these origins. -/
def Struck (steps : List Step) (makers : List Origin) : Prop :=
  ∃ before member rest, steps = before ++ .cancel member :: rest
    ∧ (originAt before member).maker ∈ makers

theorem originsFrom_concat (number : Nat) (origins : List Origin) (steps : List Step) (s : Step) :
  originsFrom number origins (steps ++ [s])
    = s.trace (number + steps.length) (originsFrom number origins steps)
  := by
  induction steps generalizing number origins with
  | nil => rfl
  | cons step steps ih =>
    have hlength : number + (steps.length + 1) = number + 1 + steps.length := by omega
    rw [List.cons_append, originsFrom, ih, List.length_cons, originsFrom, hlength]

theorem originsOf_concat (steps : List Step) (s : Step) :
  originsOf (steps ++ [s]) = s.trace steps.length (originsOf steps)
  := by
  rw [originsOf, originsFrom_concat, Nat.zero_add, ← originsOf]

theorem struck_concat {steps : List Step} {s : Step} {makers : List Origin} :
  Struck (steps ++ [s]) makers
    ↔ Struck steps makers ∨ ∃ member, s = .cancel member ∧ (originAt steps member).maker ∈ makers
  := by
  constructor
  · rintro ⟨before, member, rest, hsteps, hmaker⟩
    rcases List.eq_nil_or_concat rest with rfl | ⟨rest, last, rfl⟩
    · obtain ⟨rfl, hlast⟩ := List.append_inj' hsteps rfl
      cases hlast
      exact .inr ⟨member, rfl, hmaker⟩
    · rw [List.concat_eq_append, ← List.cons_append, ← List.append_assoc] at hsteps
      obtain ⟨rfl, -⟩ := List.append_inj' hsteps rfl
      exact .inl ⟨before, member, rest, rfl, hmaker⟩
  · rintro (⟨before, member, rest, rfl, hmaker⟩ | ⟨member, rfl, hmaker⟩)
    · exact ⟨before, member, rest ++ [s], by simp, hmaker⟩
    · exact ⟨steps, member, [], rfl, hmaker⟩

theorem struck_cons {steps : List Step} {m : Origin} {makers : List Origin} :
  Struck steps (m :: makers) ↔ Struck steps [m] ∨ Struck steps makers
  := by
  simp only [Struck, List.mem_cons, List.not_mem_nil, or_false, and_or_left, exists_or]

/-! ### When tokens were made -/

theorem madeAt_memberOrigin
    {origins : List Origin} {number : Nat}
    (h : ∀ o ∈ origins, ∀ m ∈ o.makers, m.madeAt < number) (member : Nat) :
  ∀ m ∈ (memberOrigin origins number member).makers, m.madeAt ≤ number
  := by
  rw [memberOrigin]
  cases hmember : origins[member]? with
  | none =>
    intro m hm
    rw [List.mem_singleton.mp hm]
    exact Nat.le_refl _
  | some o =>
    intro m hm
    exact Nat.le_of_lt (h o (List.mem_of_getElem? hmember) m hm)

theorem madeAt_trace
    {origins : List Origin} {number : Nat}
    (h : ∀ o ∈ origins, ∀ m ∈ o.makers, m.madeAt < number) (s : Step) :
  ∀ o ∈ s.trace number origins, ∀ m ∈ o.makers, m.madeAt < number + 1
  := by
  have hold : ∀ o ∈ origins, ∀ m ∈ o.makers, m.madeAt < number + 1 :=
    fun o ho m hm => Nat.lt_succ_of_lt (h o ho m hm)
  have hmember := fun member m hm => Nat.lt_succ_of_le (madeAt_memberOrigin h member m hm)
  cases s with
  | background =>
    rw [Step.trace, List.forall_mem_append, List.forall_mem_singleton]
    refine ⟨hold, ?_⟩
    intro m hm
    rw [List.mem_singleton.mp hm]
    exact Nat.lt_succ_self _
  | child member =>
    rw [Step.trace, List.forall_mem_append, List.forall_mem_singleton]
    refine ⟨hold, ?_⟩
    intro m hm
    rcases List.mem_cons.mp hm with rfl | hm
    · exact Nat.lt_succ_self _
    · exact hmember member m hm
  | sharing member | clone member | withRequest member _ | withRequestId member _
    | withBodyLimit member _ =>
    rw [Step.trace, List.forall_mem_append, List.forall_mem_singleton]
    exact ⟨hold, hmember member⟩
  | cancel member => exact hold
  | drop member =>
    intro o ho
    exact hold o (List.mem_of_mem_eraseIdx ho)

theorem madeAt_originsOf (steps : List Step) :
  ∀ o ∈ originsOf steps, ∀ m ∈ o.makers, m.madeAt < steps.length
  := by
  induction steps using List.reverseRecOn with
  | nil =>
    intro o ho
    cases ho
  | append_singleton steps s ih =>
    rw [originsOf_concat, List.length_append]
    exact madeAt_trace ih s

/-- What is made at a step has not been cancelled before. -/
theorem not_struck_of_madeAt {steps : List Step} {o : Origin} (h : o.madeAt = steps.length) :
  ¬ Struck steps [o]
  := by
  rintro ⟨before, member, rest, rfl, hmaker⟩
  have hle := madeAt_memberOrigin (madeAt_originsOf before) member _
    (Origin.maker_mem_makers (originAt before member))
  rw [List.mem_singleton.mp hmaker, h, List.length_append, List.length_cons] at hle
  omega

/-! ### Contexts that are known with their origins -/

/-- Whether a context holds what was set on the way from its origin. -/
structure Origin.Fits (o : Origin) (c : Context) : Prop where
  request : c.request = o.request
  requestId : c.requestId = o.requestId
  bodyLimit : c.bodyLimit = o.bodyLimit

theorem Origin.Fits.make {o : Origin} {c : Context} (h : o.Fits c) (change : Change) :
  (Origin.derived o change).Fits (change.make c)
  := by
  obtain ⟨hrequest, hid, hlimit⟩ := h
  cases change with
  | renew => exact ⟨rfl, rfl, rfl⟩
  | clone => exact ⟨hrequest, hid, hlimit⟩
  | withRequest request => exact ⟨rfl, hid, hlimit⟩
  | withRequestId id => exact ⟨hrequest, rfl, hlimit⟩
  | withBodyLimit limit => exact ⟨hrequest, hid, rfl⟩

/-- Whether the origins of some contexts tell how their tokens stand to each other, and which of
them have been cancelled. -/
structure Sound (steps : List Step) (tokens : Tokens) (known : List (Origin × Context)) :
    Prop where
  fits : ∀ p ∈ known, p.1.Fits p.2
  path_ne_nil : ∀ p ∈ known, p.2.token.path ≠ []
  path_lt : ∀ p ∈ known, ∀ n ∈ p.2.token.path, n < tokens.next
  cancelled_ne_nil : ∀ t ∈ tokens.cancelled, t.path ≠ []
  cancelled_lt : ∀ t ∈ tokens.cancelled, ∀ n ∈ t.path, n < tokens.next
  isOver_iff : ∀ p ∈ known, ∀ q ∈ known, p.2.token.IsOver q.2.token ↔ p.1.maker ∈ q.1.makers
  isCancelled_iff : ∀ p ∈ known, tokens.isCancelled p.2.token = true ↔ Struck steps p.1.makers

namespace Sound

variable {steps : List Step} {tokens : Tokens} {known known' : List (Origin × Context)}

theorem subset (h : Sound steps tokens known) (hsub : known' ⊆ known) :
  Sound steps tokens known'
  where
  fits p hp := h.fits p (hsub hp)
  path_ne_nil p hp := h.path_ne_nil p (hsub hp)
  path_lt p hp := h.path_lt p (hsub hp)
  cancelled_ne_nil := h.cancelled_ne_nil
  cancelled_lt := h.cancelled_lt
  isOver_iff p hp q hq := h.isOver_iff p (hsub hp) q (hsub hq)
  isCancelled_iff p hp := h.isCancelled_iff p (hsub hp)

/-- One more context, whose token is that of a known one. -/
theorem derive
    (h : Sound steps tokens known) {o : Origin} {c : Context} (hp : (o, c) ∈ known)
    (change : Change) :
  Sound steps tokens ((.derived o change, change.make c) :: known)
  := by
  have hknown : ∀ q ∈ (Origin.derived o change, change.make c) :: known, ∃ p ∈ known,
      q.2.token = p.2.token ∧ q.1.maker = p.1.maker ∧ q.1.makers = p.1.makers := by
    rw [List.forall_mem_cons]
    exact ⟨⟨_, hp, change.token_make c, rfl, rfl⟩, fun q hq => ⟨q, hq, rfl, rfl, rfl⟩⟩
  constructor
  · rw [List.forall_mem_cons]
    exact ⟨(h.fits _ hp).make change, h.fits⟩
  · intro q hq
    obtain ⟨p, hp, htoken, -, -⟩ := hknown q hq
    rw [htoken]
    exact h.path_ne_nil p hp
  · intro q hq
    obtain ⟨p, hp, htoken, -, -⟩ := hknown q hq
    rw [htoken]
    exact h.path_lt p hp
  · exact h.cancelled_ne_nil
  · exact h.cancelled_lt
  · intro q hq q' hq'
    obtain ⟨p, hp, htoken, hmaker, -⟩ := hknown q hq
    obtain ⟨p', hp', htoken', -, hmakers⟩ := hknown q' hq'
    rw [htoken, htoken', hmaker, hmakers]
    exact h.isOver_iff p hp p' hp'
  · intro q hq
    obtain ⟨p, hp, htoken, -, hmakers⟩ := hknown q hq
    rw [htoken, hmakers]
    exact h.isCancelled_iff p hp

/-- One more context, whose token is fresh. -/
theorem grow
    (h : Sound steps tokens known) (above : Token) (makers : List Origin) {o : Origin}
    {c : Context} (hmaker : o.maker = o) (hmakers : o.makers = o :: makers)
    (hmade : o.madeAt = steps.length) (hnew : ∀ p ∈ known, o ∉ p.1.makers)
    (hlt : ∀ n ∈ above.path, n < tokens.next)
    (hover : ∀ p ∈ known, p.2.token.IsOver above ↔ p.1.maker ∈ makers)
    (hcancelled : tokens.isCancelled above = true ↔ Struck steps makers)
    (htoken : c.token = (tokens.child above).1) (hfits : o.Fits c) :
  Sound steps (tokens.child above).2 ((o, c) :: known)
  := by
  have hpath : c.token.path = tokens.next :: above.path := by rw [htoken]; rfl
  constructor
  · rw [List.forall_mem_cons]
    exact ⟨hfits, h.fits⟩
  · rw [List.forall_mem_cons, hpath]
    exact ⟨List.cons_ne_nil _ _, h.path_ne_nil⟩
  · rw [List.forall_mem_cons, hpath, List.forall_mem_cons]
    exact ⟨⟨Nat.lt_succ_self _, fun n hn => Nat.lt_succ_of_lt (hlt n hn)⟩,
      fun p hp n hn => Nat.lt_succ_of_lt (h.path_lt p hp n hn)⟩
  · exact h.cancelled_ne_nil
  · exact fun t ht n hn => Nat.lt_succ_of_lt (h.cancelled_lt t ht n hn)
  · intro p hp q hq
    rcases List.mem_cons.mp hp with rfl | hp
    · rcases List.mem_cons.mp hq with rfl | hq
      · exact iff_of_true (Token.IsOver.refl _) (Origin.maker_mem_makers o)
      · rw [htoken, hmaker]
        exact iff_of_false (Token.not_child_isOver (h.path_lt q hq) above) (hnew q hq)
    · rcases List.mem_cons.mp hq with rfl | hq
      · have htoken_ne : p.2.token ≠ (tokens.child above).1 := by
          intro heq
          apply Token.not_child_isOver (h.path_lt p hp) above
          rw [heq]
          exact Token.IsOver.refl _
        have hmaker_ne : p.1.maker ≠ o := by
          intro heq
          apply hnew p hp
          rw [← heq]
          exact Origin.maker_mem_makers p.1
        rw [htoken, hmakers, Token.isOver_child_iff, List.mem_cons, or_iff_right htoken_ne,
          or_iff_right hmaker_ne]
        exact hover p hp
      · exact h.isOver_iff p hp q hq
  · rw [List.forall_mem_cons]
    refine ⟨?_, h.isCancelled_iff⟩
    rw [hmakers, struck_cons, or_iff_right (not_struck_of_madeAt hmade), ← hcancelled, htoken]
    simp only [Tokens.isCancelled_iff]
    apply exists_congr
    intro t
    apply and_congr_right
    intro ht
    rw [Token.isOver_child_iff, or_iff_right]
    rintro rfl
    exact Nat.lt_irrefl _ (h.cancelled_lt _ ht tokens.next List.mem_cons_self)

/-- One more context, below a known one. -/
theorem below
    (h : Sound steps tokens known) {o : Origin} {c : Context} (hp : (o, c) ∈ known)
    (hnew : ∀ p ∈ known, .child steps.length o ∉ p.1.makers) :
  Sound steps (tokens.child c.token).2
    ((.child steps.length o, c.withToken (tokens.child c.token).1) :: known)
  := by
  obtain ⟨hrequest, hid, hlimit⟩ := h.fits _ hp
  exact h.grow c.token o.makers rfl rfl rfl hnew (h.path_lt _ hp)
    (fun p hp' => h.isOver_iff p hp' _ hp) (h.isCancelled_iff _ hp) rfl ⟨hrequest, hid, hlimit⟩

/-- A step that cancels nothing is done. -/
theorem concat
    (h : Sound steps tokens known) {s : Step} (hs : ∀ member, s ≠ .cancel member) :
  Sound (steps ++ [s]) tokens known
  where
  fits := h.fits
  path_ne_nil := h.path_ne_nil
  path_lt := h.path_lt
  cancelled_ne_nil := h.cancelled_ne_nil
  cancelled_lt := h.cancelled_lt
  isOver_iff := h.isOver_iff
  isCancelled_iff p hp := by
    rw [h.isCancelled_iff p hp, struck_concat, or_iff_left]
    rintro ⟨member, rfl, -⟩
    exact hs member rfl

/-- The token of a known context is cancelled. -/
theorem cancel
    (h : Sound steps tokens known) {member : Nat} {c : Context}
    (hp : (originAt steps member, c) ∈ known) :
  Sound (steps ++ [.cancel member]) (tokens.cancel c.token) known
  where
  fits := h.fits
  path_ne_nil := h.path_ne_nil
  path_lt := h.path_lt
  cancelled_ne_nil := by
    rw [Tokens.cancel, List.forall_mem_cons]
    exact ⟨h.path_ne_nil _ hp, h.cancelled_ne_nil⟩
  cancelled_lt := by
    rw [Tokens.cancel, List.forall_mem_cons]
    exact ⟨h.path_lt _ hp, h.cancelled_lt⟩
  isOver_iff := h.isOver_iff
  isCancelled_iff q hq := by
    rw [struck_concat, ← h.isCancelled_iff q hq, Tokens.isCancelled_cancel_iff,
      h.isOver_iff _ hp q hq]
    simp only [Step.cancel.injEq, exists_eq_left']

/-- What a step names is known, or fresh. -/
theorem get
    {f : Family} (h : Sound steps f.tokens known) (horigins : known.map Prod.fst = originsOf steps)
    (hmembers : known.map Prod.snd = f.members) (member : Nat) :
  Sound steps (f.get member).2 ((originAt steps member, (f.get member).1) :: known)
  := by
  have hmade : ∀ p ∈ known, ∀ m ∈ p.1.makers, m.madeAt < steps.length := by
    intro p hp
    apply madeAt_originsOf
    rw [← horigins]
    exact List.mem_map_of_mem hp
  rw [originAt, memberOrigin, Family.get, ← horigins, ← hmembers, List.getElem?_map,
    List.getElem?_map]
  cases hmember : known[member]? with
  | some p =>
    apply h.subset
    exact List.cons_subset.mpr ⟨List.mem_of_getElem? hmember, List.Subset.refl _⟩
  | none =>
    -- A root is made as if below a token without a number, which is over nothing.
    refine h.grow ⟨[]⟩ [] rfl rfl rfl ?_ ?_ ?_ ?_ rfl ⟨rfl, rfl, rfl⟩
    · intro p hp hfresh
      exact Nat.lt_irrefl _ (hmade p hp _ hfresh)
    · intro n hn
      cases hn
    · intro p hp
      refine iff_of_false ?_ List.not_mem_nil
      intro hover
      exact h.path_ne_nil p hp (List.suffix_nil.mp hover)
    · refine iff_of_false ?_ ?_
      · rw [Tokens.isCancelled_iff]
        rintro ⟨t, ht, hover⟩
        exact h.cancelled_ne_nil t ht (List.suffix_nil.mp hover)
      · rintro ⟨_, _, _, -, hmaker⟩
        cases hmaker

end Sound

/-! ### Families -/

/-- Whether the origins that are read off some steps tell about the members of a family. -/
def Traced (steps : List Step) (f : Family) : Prop :=
  ∃ known, known.map Prod.fst = originsOf steps ∧ known.map Prod.snd = f.members
    ∧ Sound steps f.tokens known

namespace Traced

variable {steps : List Step} {f : Family}

theorem empty :
  Traced [] .empty
  := by
  refine ⟨[], rfl, rfl, ?_⟩
  constructor <;> simp [Family.empty, Tokens.empty]

/-- A step that adds a context. -/
theorem add
    {known : List (Origin × Context)} (horigins : known.map Prod.fst = originsOf steps)
    (hmembers : known.map Prod.snd = f.members) {s : Step} {o : Origin} {c : Context}
    {tokens : Tokens} (htrace : s.trace steps.length (originsOf steps) = originsOf steps ++ [o])
    (happly : f.apply s = ⟨tokens, f.members ++ [c]⟩) {known' : List (Origin × Context)}
    (hsub : known ++ [(o, c)] ⊆ known') (h : Sound (steps ++ [s]) tokens known') :
  Traced (steps ++ [s]) (f.apply s)
  := by
  refine ⟨known ++ [(o, c)], ?_, ?_, ?_⟩
  · rw [List.map_append, horigins, originsOf_concat, htrace]
    rfl
  · rw [List.map_append, hmembers, happly]
    rfl
  · rw [happly]
    exact h.subset hsub

/-- A step that derives a context under the token of a member. -/
theorem derive
    (h : Traced steps f) {s : Step} {member : Nat} (change : Change)
    (hs : ∀ member, s ≠ .cancel member) (happly : f.apply s = f.derive member change.make)
    (htrace : s.trace steps.length (originsOf steps)
      = originsOf steps ++ [.derived (originAt steps member) change]) :
  Traced (steps ++ [s]) (f.apply s)
  := by
  obtain ⟨known, horigins, hmembers, hsound⟩ := h
  have hget := hsound.get horigins hmembers member
  refine add horigins hmembers htrace happly ?_
    ((hget.derive List.mem_cons_self change).concat hs)
  apply List.append_subset.mpr
  constructor
  · intro p hp
    exact List.mem_cons_of_mem _ (List.mem_cons_of_mem _ hp)
  · exact List.cons_subset.mpr ⟨List.mem_cons_self, List.nil_subset _⟩

/-- What every step keeps. -/
theorem step (h : Traced steps f) (s : Step) :
  Traced (steps ++ [s]) (f.apply s)
  := by
  cases s with
  | sharing member => exact h.derive .renew (by simp) rfl rfl
  | clone member => exact h.derive .clone (by simp) rfl rfl
  | withRequest member request => exact h.derive (.withRequest request) (by simp) rfl rfl
  | withRequestId member id => exact h.derive (.withRequestId id) (by simp) rfl rfl
  | withBodyLimit member limit => exact h.derive (.withBodyLimit limit) (by simp) rfl rfl
  | background =>
    -- What a member would be of which there is none.
    obtain ⟨known, horigins, hmembers, hsound⟩ := h
    have hlength : (originsOf steps).length = f.members.length := by
      rw [← horigins, ← hmembers, List.length_map, List.length_map]
    have hget := hsound.get horigins hmembers f.members.length
    rw [originAt, memberOrigin, List.getElem?_eq_none (Nat.le_of_eq hlength), Family.get,
      List.getElem?_eq_none (Nat.le_refl _)] at hget
    refine add horigins hmembers rfl rfl ?_ (hget.concat (by simp))
    apply List.append_subset.mpr
    constructor
    · exact List.subset_cons_self _ _
    · exact List.cons_subset.mpr ⟨List.mem_cons_self, List.nil_subset _⟩
  | child member =>
    obtain ⟨known, horigins, hmembers, hsound⟩ := h
    have hget := hsound.get horigins hmembers member
    have hnew : ∀ p ∈ (originAt steps member, (f.get member).1) :: known,
        .child steps.length (originAt steps member) ∉ p.1.makers := by
      rw [List.forall_mem_cons]
      refine ⟨Origin.child_not_mem_makers _ _, ?_⟩
      intro p hp hchild
      have hmem : p.1 ∈ originsOf steps := by
        rw [← horigins]
        exact List.mem_map_of_mem hp
      exact Nat.lt_irrefl _ (madeAt_originsOf steps p.1 hmem _ hchild)
    refine add horigins hmembers rfl rfl ?_
      ((hget.below List.mem_cons_self hnew).concat (by simp))
    apply List.append_subset.mpr
    constructor
    · intro p hp
      exact List.mem_cons_of_mem _ (List.mem_cons_of_mem _ hp)
    · exact List.cons_subset.mpr ⟨List.mem_cons_self, List.nil_subset _⟩
  | cancel member =>
    obtain ⟨known, horigins, hmembers, hsound⟩ := h
    have hget := hsound.get horigins hmembers member
    refine ⟨known, ?_, hmembers, ?_⟩
    · rw [originsOf_concat, horigins]
      rfl
    · exact (hget.cancel List.mem_cons_self).subset (List.subset_cons_self _ _)
  | drop member =>
    obtain ⟨known, horigins, hmembers, hsound⟩ := h
    refine ⟨known.eraseIdx member, ?_, ?_, ?_⟩
    · rw [originsOf_concat, ← horigins]
      exact (List.eraseIdx_map _ _ _).symm
    · rw [Family.apply, ← hmembers]
      exact (List.eraseIdx_map _ _ _).symm
    · exact (hsound.concat (by simp)).subset fun p hp => List.mem_of_mem_eraseIdx hp

theorem run (steps : List Step) :
  Traced steps (steps.foldl Family.apply .empty)
  := by
  induction steps using List.reverseRecOn with
  | nil => exact empty
  | append_singleton steps s ih =>
    rw [List.foldl_append]
    exact ih.step s

/-- A member and its origin are known to each other. -/
theorem exists_known
    (h : Traced steps f) {i : Nat} {c : Context} {o : Origin} (hc : f.members[i]? = some c)
    (ho : (originsOf steps)[i]? = some o) :
  ∃ known, known.map Prod.fst = originsOf steps ∧ known.map Prod.snd = f.members
    ∧ Sound steps f.tokens known ∧ (o, c) ∈ known
  := by
  obtain ⟨known, horigins, hmembers, hsound⟩ := h
  refine ⟨known, horigins, hmembers, hsound, ?_⟩
  rw [← hmembers, List.getElem?_map, Option.map_eq_some_iff] at hc
  rw [← horigins, List.getElem?_map, Option.map_eq_some_iff] at ho
  obtain ⟨p, hp, rfl⟩ := hc
  obtain ⟨q, hq, rfl⟩ := ho
  rw [hp] at hq
  cases hq
  exact List.mem_of_getElem? hp

theorem isCancelled_congr
    {tokens tokens' : Tokens} (h : tokens.cancelled = tokens'.cancelled) (t : Token) :
  tokens.isCancelled t = tokens'.isCancelled t
  := by
  rw [Tokens.isCancelled, Tokens.isCancelled, h]

theorem cancelled_get (f : Family) (member : Nat) :
  (f.get member).2.cancelled = f.tokens.cancelled
  := by
  rw [Family.get]
  split <;> rfl

theorem cancelled_apply (f : Family) {s : Step} (hs : ∀ member, s ≠ .cancel member) :
  (f.apply s).tokens.cancelled = f.tokens.cancelled
  := by
  cases s with
  | cancel member => exact absurd rfl (hs member)
  | background | drop => rfl
  | child member | sharing member | clone member | withRequest member _ | withRequestId member _
    | withBodyLimit member _ => exact cancelled_get f member

/-- A step cancels what shares the token that it cancels or has one made below, and nothing
else. -/
theorem isCancelled_apply_iff
    (h : Traced steps f) {i : Nat} {c : Context} {o : Origin} (hc : f.members[i]? = some c)
    (ho : (originsOf steps)[i]? = some o) (s : Step) :
  (f.apply s).isCancelled c = true
    ↔ f.isCancelled c = true
      ∨ ∃ member, s = .cancel member ∧ (originAt steps member).maker ∈ o.makers
  := by
  obtain ⟨known, horigins, hmembers, hsound, hknown⟩ := h.exists_known hc ho
  by_cases hcancel : ∃ member, s = .cancel member
  · obtain ⟨member, rfl⟩ := hcancel
    have hover := (hsound.get horigins hmembers member).isOver_iff _ List.mem_cons_self _
      (List.mem_cons_of_mem _ hknown)
    have hbefore : (f.get member).2.isCancelled c.token = f.isCancelled c :=
      isCancelled_congr (cancelled_get f member) c.token
    rw [Family.isCancelled, Family.apply, Tokens.isCancelled_cancel_iff, hbefore, hover]
    simp only [Step.cancel.injEq, exists_eq_left']
  · have hsame : (f.apply s).isCancelled c = f.isCancelled c :=
      isCancelled_congr (cancelled_apply f fun member hs => hcancel ⟨member, hs⟩) c.token
    rw [hsame, or_iff_left]
    rintro ⟨member, hs, -⟩
    exact hcancel ⟨member, hs⟩

end Traced

/-- The members that a step leaves. -/
def Step.left (members : List Context) : Step → List Context
  | .drop member => members.eraseIdx member
  | _ => members

/-- The members that are left stay as they are. -/
theorem left_mono (f : Family) (s : Step) :
  s.left f.members <+: (f.apply s).members
  := by
  cases s with
  | cancel | drop => exact List.prefix_refl _
  | background | child | sharing | clone | withRequest | withRequestId | withBodyLimit =>
    exact List.prefix_append _ _

/-- Contexts are values over a tree of tokens.  After any steps a member holds what was set last
on the way from its origin, and it has been cancelled if and only if a step cancelled the token
that it shares or one above it, whatever has been dropped and in whatever order this was done.
A further step leaves all members as they are but for one that it drops, and what it cancels is
what shares the token of the member it names or has one made below.  So a child that is cancelled
cancels neither what its token was made below nor another child. -/
theorem members_keep_to_origins (steps : List Step) :
  let f := steps.foldl Family.apply .empty
  f.members.length = (originsOf steps).length
  ∧ (∀ (i : Nat) c o, f.members[i]? = some c → (originsOf steps)[i]? = some o →
    o.Fits c ∧ (f.isCancelled c = true ↔ Struck steps o.makers))
  ∧ ∀ s, s.left f.members <+: (f.apply s).members
    ∧ ∀ (i : Nat) c o, f.members[i]? = some c → (originsOf steps)[i]? = some o →
      ((f.apply s).isCancelled c = true
        ↔ f.isCancelled c = true
          ∨ ∃ member, s = .cancel member ∧ (originAt steps member).maker ∈ o.makers)
      ∧ ∀ member step source, s = .cancel member →
        (originAt steps member).maker = .child step source →
        (o.maker ∈ source.makers ∨ ∃ other, other ≠ step ∧ o.maker = .child other source) →
        (f.apply s).isCancelled c = f.isCancelled c
  := by
  intro f
  have htraced : Traced steps f := .run steps
  refine ⟨?_, ?_, fun s => ⟨left_mono f s, ?_⟩⟩
  · obtain ⟨known, horigins, hmembers, -⟩ := htraced
    rw [← horigins, ← hmembers, List.length_map, List.length_map]
  · intro i c o hc ho
    obtain ⟨known, -, -, hsound, hknown⟩ := htraced.exists_known hc ho
    exact ⟨hsound.fits _ hknown, hsound.isCancelled_iff _ hknown⟩
  · intro i c o hc ho
    have hcancelled := htraced.isCancelled_apply_iff hc ho s
    refine ⟨hcancelled, ?_⟩
    rintro member step source rfl hmaker hother
    have hapart := Origin.child_not_mem_of_apart hother
    rw [← hmaker] at hapart
    rw [Bool.eq_iff_iff, hcancelled, or_iff_left]
    rintro ⟨_, ⟨⟩, hmem⟩
    exact hapart hmem

/-- A context below others that are dropped, and one that is made below it only after the token
above all of them has been cancelled. -/
def lateSteps : List Step :=
  [.background, .withBodyLimit 0 5, .child 1, .child 2, .drop 2, .drop 0, .cancel 0, .child 1]

theorem members_keep_to_origins_lateSteps :
  ∃ below late, (lateSteps.foldl Family.apply .empty).members[1]? = some below
    ∧ (lateSteps.foldl Family.apply .empty).members[2]? = some late
    ∧ (lateSteps.foldl Family.apply .empty).isCancelled late = true
    ∧ late.bodyLimit = some 5
    ∧ ((lateSteps.foldl Family.apply .empty).apply (.cancel 2)).isCancelled below
      = (lateSteps.foldl Family.apply .empty).isCancelled below
  := by
  obtain ⟨-, hmembers, hstep⟩ := members_keep_to_origins lateSteps
  obtain ⟨hfits, hcancelled⟩ := hmembers 2 _ _ rfl rfl
  obtain ⟨-, hparent⟩ := (hstep (.cancel 2)).2 1 _ _ rfl rfl
  refine ⟨_, _, rfl, rfl, hcancelled.mpr ?_, hfits.bodyLimit, ?_⟩
  · exact ⟨lateSteps.take 6, 0, [.child 1], rfl, .tail _ (.tail _ (.tail _ (.head _)))⟩
  · exact hparent 2 7 _ rfl rfl (.inl (.head _))

end StreamCall.Context
