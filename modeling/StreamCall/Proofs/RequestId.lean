import Mathlib.Data.List.DropRight
import StreamCall.RequestId

/-!
# Ids and blanks

Trimming a text a second time changes nothing (`trim_trim`), and nothing is left of a text just
if it is blank (`trim_eq_empty_iff`).  An id comes from a text or from random bytes
(`IsObtained`); either way it is not empty, and it is read from its own text
(`parse_text`).
-/

namespace StreamCall

namespace Text

theorem trimChars_eq_nil_iff {cs : List Char} :
  trimChars cs = [] ↔ ∀ c ∈ cs, isBlank c = true
  := by
  have hbehind : trimChars cs = [] ↔ ∀ c ∈ cs.dropWhile isBlank, isBlank c = true :=
    List.rdropWhile_eq_nil_iff
  rw [hbehind, ← List.dropWhile_eq_nil_iff, List.dropWhile_idempotent, List.dropWhile_eq_nil_iff]

theorem trimChars_of_unblank {cs : List Char} (h : ∀ c ∈ cs, isBlank c = false) :
  trimChars cs = cs
  := by
  have hfront : cs.dropWhile isBlank = cs := by
    rw [List.dropWhile_eq_self_iff]
    intro hpos
    simp [h]
  have hback : cs.rdropWhile isBlank = cs := by
    rw [List.rdropWhile_eq_self_iff]
    intro hne
    simp [h]
  rw [trimChars, hfront]
  exact hback

theorem trimChars_trimChars (cs : List Char) :
  trimChars (trimChars cs) = trimChars cs
  := by
  have hinit : trimChars cs <+: cs.dropWhile isBlank := List.rdropWhile_prefix isBlank _
  have hfront : (trimChars cs).dropWhile isBlank = trimChars cs := by
    rw [List.dropWhile_eq_self_iff]
    intro hpos
    rw [hinit.getElem hpos]
    exact List.dropWhile_get_zero_not isBlank cs (hpos.trans_le hinit.length_le)
  have hback : (trimChars cs).rdropWhile isBlank = trimChars cs :=
    List.rdropWhile_idempotent isBlank _
  rw [trimChars, hfront]
  exact hback

theorem trim_trim (s : String) :
  trim (trim s) = trim s
  := by
  rw [trim, trim, String.toList_ofList, trimChars_trimChars]

theorem trim_eq_empty_iff (s : String) :
  trim s = "" ↔ s.toList.all isBlank = true
  := by
  rw [trim, List.all_eq_true, ← trimChars_eq_nil_iff]
  constructor
  · intro h
    simpa using congrArg String.toList h
  · intro h
    rw [h]

/-- A text without blanks. -/
def Unblank (s : String) : Prop := ∀ c ∈ s.toList, isBlank c = false

instance (s : String) : Decidable (Unblank s) := List.decidableBAll _ s.toList

theorem Unblank.append {s t : String} (hs : Unblank s) (ht : Unblank t) :
  Unblank (s ++ t)
  := by
  intro c hc
  rw [String.toList_append, List.mem_append] at hc
  obtain hc | hc := hc
  · exact hs c hc
  · exact ht c hc

theorem Unblank.trim {s : String} (h : Unblank s) :
  trim s = s
  := by
  rw [Text.trim, trimChars_of_unblank h, String.ofList_toList]

end Text

namespace RequestId

/-- Whether an id comes from a text or from random bytes. -/
inductive IsObtained : RequestId → Prop where
  | parsed {value : String} {id : RequestId} (h : parse value = some id) : IsObtained id
  | random (bytes : Bytes) : IsObtained (ofRandom bytes)

theorem parse_of_ne_empty {value : String} (h : Text.trim value ≠ "") :
  parse value = some ⟨Text.trim value⟩
  := by
  rw [parse]
  exact if_neg (by simpa using h)

theorem text_of_parse {value : String} {id : RequestId} (h : parse value = some id) :
  id.text = Text.trim value ∧ id.text ≠ ""
  := by
  by_cases hempty : Text.trim value = ""
  · simp [parse, hempty] at h
  · rw [parse_of_ne_empty hempty] at h
    cases h
    exact ⟨rfl, hempty⟩

theorem unblank_hexBytes (bytes : List Nat) :
  Text.Unblank (hexBytes bytes)
  := by
  have hdigit : ∀ k < 16, Text.isBlank (Nat.digitChar k) = false := by decide
  intro c hc
  rw [hexBytes, String.toList_ofList, List.mem_flatMap] at hc
  obtain ⟨n, -, hc⟩ := hc
  rw [hexByte, List.mem_pair] at hc
  obtain rfl | rfl := hc
  · exact hdigit _ (Nat.mod_lt _ (by decide))
  · exact hdigit _ (Nat.mod_lt _ (by decide))

/-- The groups of digits of a fresh id. -/
theorem text_ofRandom (bytes : Bytes) :
  ∃ b₁ b₂ b₃ b₄ b₅, (ofRandom bytes).text
    = hexBytes b₁ ++ "-" ++ hexBytes b₂ ++ "-" ++ hexBytes b₃ ++ "-" ++ hexBytes b₄ ++ "-"
      ++ hexBytes b₅
  :=
  ⟨_, _, _, _, _, rfl⟩

theorem unblank_ofRandom (bytes : Bytes) :
  Text.Unblank (ofRandom bytes).text
  := by
  have hdash : Text.Unblank "-" := by decide
  obtain ⟨b₁, b₂, b₃, b₄, b₅, htext⟩ := text_ofRandom bytes
  rw [htext]
  have hgroup : ∀ {s : String}, Text.Unblank s → ∀ b, Text.Unblank (s ++ "-" ++ hexBytes b) :=
    fun h b => (h.append hdash).append (unblank_hexBytes b)
  exact hgroup (hgroup (hgroup (hgroup (unblank_hexBytes b₁) b₂) b₃) b₄) b₅

theorem text_ofRandom_ne_empty (bytes : Bytes) :
  (ofRandom bytes).text ≠ ""
  := by
  obtain ⟨b₁, b₂, b₃, b₄, b₅, htext⟩ := text_ofRandom bytes
  intro h
  have hlength := congrArg String.length (htext.symm.trans h)
  simp at hlength

/-- An id is read from its own text. -/
theorem IsObtained.parse_text {id : RequestId} (h : id.IsObtained) :
  parse id.text = some id
  := by
  have hread : Text.trim id.text = id.text ∧ id.text ≠ "" := by
    cases h with
    | parsed h =>
      obtain ⟨htext, hne⟩ := text_of_parse h
      rw [htext, Text.trim_trim, ← htext]
      exact ⟨rfl, hne⟩
    | random bytes =>
      exact ⟨(unblank_ofRandom bytes).trim, text_ofRandom_ne_empty bytes⟩
  rw [parse_of_ne_empty (hread.1.trans_ne hread.2), hread.1]

end RequestId

end StreamCall
