import Mathlib.Algebra.Order.Floor.Div
import Mathlib.GroupTheory.GroupAction.Ring
import StreamCall.Envelope.Limit
import StreamCall.Proofs.Envelope.Size

/-!
# The bound on documents

A body takes four bytes for every three begun, whatever the headers are, so the bound on
documents leaves room for every body that is allowed (`length_encodeWith_le_maxSize`).  It is
computed in words of 64 bits, and the operations that stop at the largest word give what the
numbers say (`toNat_maxSizeWord`).
-/

namespace StreamCall.Envelope

/-! ### Words -/

/-- Division of words, rounded up. -/
def ceilDivWord (a b : UInt64) : UInt64 :=
  if a % b = 0 then a / b else a / b + 1

/-- Multiplication of words that stops at the largest one. -/
def saturatingMul (a b : UInt64) : UInt64 :=
  if a.toNat * b.toNat ≤ maxWord then a * b else UInt64.ofNat maxWord

/-- Addition of words that stops at the largest one. -/
def saturatingAdd (a b : UInt64) : UInt64 :=
  if a.toNat + b.toNat ≤ maxWord then a + b else UInt64.ofNat maxWord

/-- The largest document for bodies of at most `maxBody` bytes, as words compute it. -/
def maxSizeWord (maxBody : UInt64) : UInt64 :=
  saturatingAdd (saturatingMul (ceilDivWord maxBody 3) 4) (UInt64.ofNat overhead)

theorem lt_size_iff_le_maxWord (n : Nat) :
  n < UInt64.size ↔ n ≤ maxWord
  := by
  rw [show UInt64.size = maxWord + 1 by decide, Nat.lt_succ_iff]

theorem toNat_maxWord :
  (UInt64.ofNat maxWord).toNat = maxWord
  :=
  UInt64.toNat_ofNat_of_lt' ((lt_size_iff_le_maxWord _).mpr (Nat.le_refl _))

theorem toNat_saturatingMul (a b : UInt64) :
  (saturatingMul a b).toNat = min (a.toNat * b.toNat) maxWord
  := by
  rw [saturatingMul]
  split
  · rename_i h
    rw [UInt64.toNat_mul, Nat.mod_eq_of_lt ((lt_size_iff_le_maxWord _).mpr h), Nat.min_eq_left h]
  · rename_i h
    rw [toNat_maxWord, Nat.min_eq_right (Nat.le_of_not_le h)]

theorem toNat_saturatingAdd (a b : UInt64) :
  (saturatingAdd a b).toNat = min (a.toNat + b.toNat) maxWord
  := by
  rw [saturatingAdd]
  split
  · rename_i h
    rw [UInt64.toNat_add, Nat.mod_eq_of_lt ((lt_size_iff_le_maxWord _).mpr h), Nat.min_eq_left h]
  · rename_i h
    rw [toNat_maxWord, Nat.min_eq_right (Nat.le_of_not_le h)]

/-- Rounding up never goes beyond the words. -/
theorem toNat_ceilDivWord_three (a : UInt64) :
  (ceilDivWord a 3).toNat = a.toNat ⌈/⌉ 3
  := by
  have hlt := a.toNat_lt
  have hmod : (a % 3).toNat = a.toNat % 3 := UInt64.toNat_mod a 3
  have hdiv : (a / 3).toNat = a.toNat / 3 := UInt64.toNat_div a 3
  rw [ceilDivWord, Nat.ceilDiv_eq_add_pred_div]
  split
  · rename_i h
    rw [h] at hmod
    have hzero : (0 : UInt64).toNat = 0 := rfl
    omega
  · rename_i h
    have hne : a.toNat % 3 ≠ 0 := by
      intro hzero
      exact h (UInt64.toNat_inj.mp (hmod.trans hzero))
    have hone : (1 : UInt64).toNat = 1 := rfl
    rw [UInt64.toNat_add, hdiv, hone, Nat.mod_eq_of_lt (by omega)]
    omega

/-! ### The bound -/

/-- Four bytes for every three begun and the fixed share, up to the largest word. -/
theorem maxSize_eq (maxBody : Nat) :
  maxSize maxBody = min (4 * (maxBody ⌈/⌉ 3) + overhead) maxWord
  := by
  rw [maxSize, Nat.ceilDiv_eq_add_pred_div]
  omega

/-- No word is too large for what words compute. -/
theorem toNat_maxSizeWord (maxBody : UInt64) :
  (maxSizeWord maxBody).toNat = maxSize maxBody.toNat
  := by
  have hoverhead : (UInt64.ofNat overhead).toNat = overhead := by decide
  have hfour : (4 : UInt64).toNat = 4 := rfl
  rw [maxSizeWord, toNat_saturatingAdd, toNat_saturatingMul, toNat_ceilDivWord_three, hoverhead,
    hfour, maxSize_eq]
  omega

/-- The body takes its share of a document, whatever the headers and their order are. -/
theorem length_encodeWith_eq_add
    (body : Bytes) {es es' : List (String × String)} (h : es.Perm es') :
  (encodeWith body es).length = 4 * (body.length ⌈/⌉ 3) + (encodeWith [] es').length
  := by
  rw [length_encodeWith, length_encodeWith, entriesLength_perm h, Nat.ceilDiv_eq_add_pred_div,
    List.length_nil]
  omega

/-- The most bytes that memory holds in one piece, a body for instance. -/
def maxLength : Nat := Nat.pow 2 63 - 1

/-- A request whose body is allowed and whose headers fit into their share has a document within
the bound, in whatever order its headers are written.  The bound is an exact function of the
largest body, ascends with it, and is what words compute. -/
theorem length_encodeWith_le_maxSize :
  (∀ (maxBody : Nat) (r : Request) (es es' : List (String × String)),
    es.Perm r.headers.entries → es'.Perm r.headers.entries →
    r.body.length ≤ maxBody → (encodeWith [] es').length ≤ overhead →
    (encodeWith r.body es).length ≤ 4 * (maxBody ⌈/⌉ 3) + overhead
    ∧ (r.body.length ≤ maxLength → (encodeWith r.body es).length ≤ maxSize maxBody))
  ∧ (∀ (r : Request) (es es' : List (String × String)),
    es.Perm r.headers.entries → es'.Perm r.headers.entries →
    (encodeWith r.body es).length = 4 * (r.body.length ⌈/⌉ 3) + (encodeWith [] es').length)
  ∧ (∀ maxBody : UInt64,
    (maxSizeWord maxBody).toNat = maxSize maxBody.toNat
    ∧ maxSize maxBody.toNat = min (4 * (maxBody.toNat ⌈/⌉ 3) + 65536) maxWord)
  ∧ (∀ m n : Nat, m ≤ n → maxSize m ≤ maxSize n)
  ∧ ∀ r : Request, encode r.envelope = encodeWith r.body (writingOrder r.headers)
    ∧ (writingOrder r.headers).Perm r.headers.entries
  := by
  have hmono : ∀ {m n : Nat}, m ≤ n → m ⌈/⌉ 3 ≤ n ⌈/⌉ 3 := by
    intro m n h
    rw [Nat.ceilDiv_eq_add_pred_div, Nat.ceilDiv_eq_add_pred_div]
    omega
  refine ⟨?_, ?_, ?_, ?_, ?_⟩
  · intro maxBody r es es' hes hes' hbody hheaders
    have hlargest : 4 * (maxLength ⌈/⌉ 3) + overhead ≤ maxWord := by decide
    have := hmono hbody
    rw [length_encodeWith_eq_add r.body (hes.trans hes'.symm), maxSize_eq, Nat.le_min]
    refine ⟨by omega, fun hlength => ?_⟩
    have := hmono hlength
    omega
  · intro r es es' hes hes'
    exact length_encodeWith_eq_add r.body (hes.trans hes'.symm)
  · intro maxBody
    exact ⟨toNat_maxSizeWord maxBody, maxSize_eq maxBody.toNat⟩
  · intro m n h
    have := hmono h
    rw [maxSize_eq, maxSize_eq]
    omega
  · intro r
    exact ⟨rfl, writingOrder_perm r.headers⟩

theorem length_encodeWith_le_maxSize_oddHeaders :
  (encodeWith [7, 8] oddHeaders.entries.reverse).length ≤ maxSize 2
  ∧ (encodeWith [7, 8] oddHeaders.entries.reverse).length
    = 4 + (encodeWith [] oddHeaders.entries).length
  := by
  have hperm : oddHeaders.entries.reverse.Perm oddHeaders.entries := List.reverse_perm _
  have hheaders : (encodeWith [] oddHeaders.entries).length ≤ overhead := by decide
  constructor
  · exact (length_encodeWith_le_maxSize.1 2 ⟨"localhost:1", none, [7, 8], oddHeaders⟩ _ _ hperm
      (.refl _) (by decide) hheaders).2 (by decide)
  · exact length_encodeWith_le_maxSize.2.1 ⟨"localhost:1", none, [7, 8], oddHeaders⟩ _ _ hperm
      (.refl _)

end StreamCall.Envelope
