import StreamCall.Token

/-!
# Trees of tokens

A token is over itself and over all that was made below it (`Token.IsOver`), and it has been
cancelled if one that is over it was (`Tokens.isCancelled_iff`).  What is below one of two tokens
that are apart is not over what is below the other (`Token.Apart.not_isOver`).
-/

namespace StreamCall

namespace Token

/-- Whether a token is another one or an ancestor of it. -/
def IsOver (t u : Token) : Prop := t.path <:+ u.path

theorem IsOver.refl (t : Token) : t.IsOver t := List.suffix_rfl

theorem IsOver.trans {t u v : Token} (h : t.IsOver u) (h' : u.IsOver v) :
  t.IsOver v
  :=
  List.IsSuffix.trans h h'

theorem isOver_child (s : Tokens) (t : Token) :
  t.IsOver (s.child t).1
  :=
  List.suffix_cons s.next t.path

theorem isOver_child_iff {s : Tokens} {t u : Token} :
  u.IsOver (s.child t).1 ↔ u = (s.child t).1 ∨ u.IsOver t
  := by
  obtain ⟨path⟩ := u
  simp [IsOver, Tokens.child, List.suffix_cons_iff]

/-- A fresh token is over none of those that have been given out. -/
theorem not_child_isOver {s : Tokens} {u : Token} (h : ∀ n ∈ u.path, n < s.next) (t : Token) :
  ¬ (s.child t).1.IsOver u
  := by
  intro hover
  exact Nat.lt_irrefl s.next (h s.next (hover.subset List.mem_cons_self))

/-- What is below a token is not over it. -/
theorem not_isOver_of_child {t u : Token} {n : Nat} (h : IsOver ⟨n :: u.path⟩ t) :
  ¬ t.IsOver u
  := by
  intro hover
  exact Nat.not_succ_le_self _ (h.trans hover).length_le

/-- Tokens none of which is over the other. -/
structure Apart (t u : Token) : Prop where
  not_over : ¬ t.IsOver u
  not_under : ¬ u.IsOver t

theorem Apart.symm {t u : Token} (h : t.Apart u) : u.Apart t := ⟨h.not_under, h.not_over⟩

/-- What is below one of two such tokens is not over what is below the other. -/
theorem Apart.not_isOver {t u v w : Token} (h : t.Apart u) (ht : t.IsOver v) (hu : u.IsOver w) :
  ¬ v.IsOver w
  := by
  intro hover
  cases List.suffix_or_suffix_of_suffix (ht.trans hover) hu with
  | inl hover => exact h.not_over hover
  | inr hunder => exact h.not_under hunder

end Token

theorem Tokens.isCancelled_iff {s : Tokens} {t : Token} :
  s.isCancelled t = true ↔ ∃ c ∈ s.cancelled, c.IsOver t
  := by
  simp [Tokens.isCancelled, Token.IsOver]

theorem Tokens.isCancelled_cancel_iff {s : Tokens} {t u : Token} :
  (s.cancel t).isCancelled u = true ↔ s.isCancelled u = true ∨ t.IsOver u
  := by
  simp [Tokens.isCancelled, Tokens.cancel, Token.IsOver, or_comm]

end StreamCall
