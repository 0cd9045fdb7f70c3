import StreamCall.Json.Skip

/-!
# Longer texts

No reader looks beyond what it takes: what is read from the front of a text is read from the
front of every longer text, and what is longer is left.  The one exception is a number, whose
end shows only in what follows; so a value that is passed over has to leave something
(`skip_more`).
-/

namespace StreamCall.Json

theorem skipSpace_more {text rest : Bytes} {b : UInt8} (h : skipSpace text = b :: rest)
    (more : Bytes) :
  skipSpace (text ++ more) = b :: (rest ++ more)
  := by
  rw [skipSpace] at h
  rw [skipSpace, List.dropWhile_append, h]
  rfl

theorem word_more {w text rest : Bytes} (h : word w text = .ok rest) (more : Bytes) :
  word w (text ++ more) = .ok (rest ++ more)
  := by
  induction w generalizing text with
  | nil =>
    cases h
    rfl
  | cons c w ih =>
    cases text with
    | nil => cases h
    | cons b text =>
      rw [word] at h
      rw [List.cons_append, word]
      split at h
      · rw [if_pos ‹_›]
        exact ih h
      · cases h

/-! ### Strings -/

theorem hexEscape_more {text : Bytes} {r : Nat × Bytes} (h : hexEscape text = .ok r)
    (more : Bytes) :
  hexEscape (text ++ more) = .ok (r.1, r.2 ++ more)
  := by
  revert h
  fun_cases hexEscape text with
  | case1 a b c d rest n hquad =>
    rintro ⟨⟩
    simp only [List.cons_append, hexEscape, hquad]
  | _ => rintro ⟨⟩

theorem lowSurrogate_more {high : Nat} {text : Bytes} {r : Nat × Bytes}
    (h : lowSurrogate high text = .ok r) (more : Bytes) :
  lowSurrogate high (text ++ more) = .ok (r.1, r.2 ++ more)
  := by
  revert h
  fun_cases lowSurrogate high text with
  | case4 digits low rest hread hlow =>
    intro h
    rw [← Except.ok.inj h]
    simp only [List.cons_append, lowSurrogate, if_true, hexEscape_more hread, if_pos hlow]
  | _ => rintro ⟨⟩

theorem unicodeEscape_more {text : Bytes} {r : Nat × Bytes} (h : unicodeEscape text = .ok r)
    (more : Bytes) :
  unicodeEscape (text ++ more) = .ok (r.1, r.2 ++ more)
  := by
  revert h
  fun_cases unicodeEscape text with
  | case3 n rest hread hlow hhigh =>
    intro h
    simp only [unicodeEscape, hexEscape_more hread, if_neg hlow, if_pos hhigh,
      lowSurrogate_more h]
  | case4 n rest hread hlow hhigh =>
    rintro ⟨⟩
    simp only [unicodeEscape, hexEscape_more hread, if_neg hlow, if_neg hhigh]
  | _ => rintro ⟨⟩

theorem escape_more {text : Bytes} {r : Bytes × Bytes} (h : escape text = .ok r)
    (more : Bytes) :
  escape (text ++ more) = .ok (r.1, r.2 ++ more)
  := by
  revert h
  fun_cases escape text with
  | case3 digits n rest hread =>
    rintro ⟨⟩
    simp only [List.cons_append, escape, if_true, unicodeEscape_more hread]
  | case4 b rest hb c hc =>
    rintro ⟨⟩
    simp only [List.cons_append, escape, if_neg hb, hc]
  | _ => rintro ⟨⟩

/-- A bound on the number of steps may be larger. -/
theorem exists_cons_of_length_le {x : UInt8} {bound bound' : Bytes}
    (h : (x :: bound).length ≤ bound'.length) :
  ∃ y tail, bound' = y :: tail ∧ bound.length ≤ tail.length
  := by
  cases bound' with
  | nil => cases h
  | cons y tail => exact ⟨y, tail, rfl, Nat.le_of_succ_le_succ h⟩

theorem stringBytes_more {bound bound' out text : Bytes} {r : Bytes × Bytes}
    (h : stringBytes bound out text = .ok r) (hbound : bound.length ≤ bound'.length)
    (more : Bytes) :
  stringBytes bound' out (text ++ more) = .ok (r.1, r.2 ++ more)
  := by
  have hquote : backslash ≠ quote := by decide
  fun_induction stringBytes bound out text generalizing bound' with
  | case3 x bound out left =>
    obtain ⟨y, bound', rfl, hle⟩ := exists_cons_of_length_le hbound
    cases h
    simp only [List.cons_append, stringBytes, if_true]
  | case5 x bound out left bytes behind hread _ ih =>
    obtain ⟨y, bound', rfl, hle⟩ := exists_cons_of_length_le hbound
    simp only [List.cons_append, stringBytes, if_neg hquote, if_true, escape_more hread]
    exact ih h hle
  | case7 x bound out b left hb hescape hcontrol ih =>
    obtain ⟨y, bound', rfl, hle⟩ := exists_cons_of_length_le hbound
    simp only [List.cons_append, stringBytes, if_neg hb, if_neg hescape, if_neg hcontrol]
    exact ih h hle
  | _ => cases h

theorem string_more {text : Bytes} {r : String × Bytes} (h : string text = .ok r)
    (more : Bytes) :
  string (text ++ more) = .ok (r.1, r.2 ++ more)
  := by
  have hbound : text.length ≤ (text ++ more).length := by simp
  revert h
  fun_cases string text with
  | case2 bytes rest hread s hs =>
    rintro ⟨⟩
    simp only [string, stringBytes_more hread hbound, hs]
  | _ => rintro ⟨⟩

theorem skipEscape_more {text rest : Bytes} (h : skipEscape text = .ok rest) (more : Bytes) :
  skipEscape (text ++ more) = .ok (rest ++ more)
  := by
  revert h
  fun_cases skipEscape text with
  | case3 digits n rest hread =>
    rintro ⟨⟩
    simp only [List.cons_append, skipEscape, if_true, hexEscape_more hread]
  | case4 b rest hb hletter =>
    rintro ⟨⟩
    simp only [List.cons_append, skipEscape, if_neg hb, if_pos hletter]
  | _ => rintro ⟨⟩

theorem skipStringFrom_more {bound bound' text rest : Bytes}
    (h : skipStringFrom bound text = .ok rest) (hbound : bound.length ≤ bound'.length)
    (more : Bytes) :
  skipStringFrom bound' (text ++ more) = .ok (rest ++ more)
  := by
  have hquote : backslash ≠ quote := by decide
  fun_induction skipStringFrom bound text generalizing bound' with
  | case3 x bound left =>
    obtain ⟨y, bound', rfl, hle⟩ := exists_cons_of_length_le hbound
    cases h
    simp only [List.cons_append, skipStringFrom, if_true]
  | case5 x bound left behind hread _ ih =>
    obtain ⟨y, bound', rfl, hle⟩ := exists_cons_of_length_le hbound
    simp only [List.cons_append, skipStringFrom, if_neg hquote, if_true, skipEscape_more hread]
    exact ih h hle
  | case7 x bound b left hb hescape hcontrol ih =>
    obtain ⟨y, bound', rfl, hle⟩ := exists_cons_of_length_le hbound
    simp only [List.cons_append, skipStringFrom, if_neg hb, if_neg hescape, if_neg hcontrol]
    exact ih h hle
  | _ => cases h

theorem skipString_more {text rest : Bytes} (h : skipString text = .ok rest) (more : Bytes) :
  skipString (text ++ more) = .ok (rest ++ more)
  :=
  skipStringFrom_more h (by simp) more

/-! ### Numbers -/

theorem skipDigits_more {text : Bytes} (h : skipDigits text ≠ []) (more : Bytes) :
  skipDigits (text ++ more) = skipDigits text ++ more
  := by
  rw [skipDigits] at h ⊢
  rw [List.dropWhile_append, if_neg (by simpa using h), skipDigits]

theorem nextIs_more {text : Bytes} (h : text ≠ []) (p : UInt8 → Bool) (more : Bytes) :
  nextIs p (text ++ more) = nextIs p text
  := by
  cases text with
  | nil => exact absurd rfl h
  | cons b text => rfl

theorem ne_nil_of_nextIs {text : Bytes} {p : UInt8 → Bool} (h : nextIs p text = true) :
  text ≠ []
  := by
  rintro rfl
  cases h

theorem skipExponent_more {text rest : Bytes} (h : skipExponent text = .ok rest)
    (hrest : rest ≠ []) (more : Bytes) :
  skipExponent (text ++ more) = .ok (rest ++ more)
  := by
  revert h
  fun_cases skipExponent text with
  | case2 b digits hsign hb =>
    rintro ⟨⟩
    have htext : text ≠ [] := by
      rintro rfl
      cases hsign
    have hmore : (if nextIs isSign (text ++ more) then (text ++ more).tail else text ++ more)
        = b :: (digits ++ more) := by
      rw [nextIs_more htext, List.tail_append_of_ne_nil htext, ← List.cons_append, ← hsign]
      split
      · rfl
      · rfl
    simp only [skipExponent, hmore, if_pos hb, skipDigits_more hrest]
  | _ => rintro ⟨⟩

theorem skipOptionalExponent_ne_nil {text rest : Bytes}
    (h : skipOptionalExponent text = .ok rest) (hrest : rest ≠ []) :
  text ≠ []
  := by
  rintro rfl
  cases h
  exact hrest rfl

theorem skipOptionalExponent_more {text rest : Bytes} (h : skipOptionalExponent text = .ok rest)
    (hrest : rest ≠ []) (more : Bytes) :
  skipOptionalExponent (text ++ more) = .ok (rest ++ more)
  := by
  revert h
  fun_cases skipOptionalExponent text with
  | case1 hmark =>
    intro h
    have htext := ne_nil_of_nextIs hmark
    rw [skipOptionalExponent, nextIs_more htext, if_pos hmark, List.tail_append_of_ne_nil htext,
      skipExponent_more h hrest]
  | case2 hmark =>
    rintro ⟨⟩
    rw [skipOptionalExponent, nextIs_more hrest, if_neg hmark]

theorem skipFraction_ne_nil {text rest : Bytes} (h : skipFraction text = .ok rest)
    (hrest : rest ≠ []) :
  text ≠ []
  := by
  rintro rfl
  cases h
  exact hrest rfl

theorem skipFraction_more {text rest : Bytes} (h : skipFraction text = .ok rest)
    (hrest : rest ≠ []) (more : Bytes) :
  skipFraction (text ++ more) = .ok (rest ++ more)
  := by
  revert h
  fun_cases skipFraction text with
  | case1 hpoint hdigit =>
    intro h
    have htext := ne_nil_of_nextIs hpoint
    rw [skipFraction, nextIs_more htext, if_pos hpoint, List.tail_append_of_ne_nil htext,
      nextIs_more (ne_nil_of_nextIs hdigit), if_pos hdigit,
      skipDigits_more (skipOptionalExponent_ne_nil h hrest), skipOptionalExponent_more h hrest]
  | case2 => rintro ⟨⟩
  | case3 hpoint =>
    intro h
    rw [skipFraction, nextIs_more (skipOptionalExponent_ne_nil h hrest), if_neg hpoint,
      skipOptionalExponent_more h hrest]

/-- A number that leaves something ends there in a longer text too. -/
theorem skipNumber_more {text rest : Bytes} (h : skipNumber text = .ok rest)
    (hrest : rest ≠ []) (more : Bytes) :
  skipNumber (text ++ more) = .ok (rest ++ more)
  := by
  revert h
  fun_cases skipNumber text with
  | case3 left hdigit =>
    intro h
    rw [List.cons_append, skipNumber, if_pos rfl, nextIs_more (skipFraction_ne_nil h hrest),
      if_neg hdigit, skipFraction_more h hrest]
  | case4 b left hb hdigit =>
    intro h
    rw [List.cons_append, skipNumber, if_neg hb, if_pos hdigit,
      skipDigits_more (skipFraction_ne_nil h hrest), skipFraction_more h hrest]
  | _ => rintro ⟨⟩

/-! ### Values -/

theorem skipScalar_more {b : UInt8} {text rest : Bytes} (h : skipScalar b text = .ok rest)
    (hrest : rest ≠ []) (more : Bytes) :
  skipScalar b (text ++ more) = .ok (rest ++ more)
  := by
  revert h
  fun_cases skipScalar b text with
  | case1 hnull =>
    intro h
    rw [skipScalar, if_pos hnull, word_more h]
  | case2 hnull htrue =>
    intro h
    rw [skipScalar, if_neg hnull, if_pos htrue, word_more h]
  | case3 hnull htrue hfalse =>
    intro h
    rw [skipScalar, if_neg hnull, if_neg htrue, if_pos hfalse, word_more h]
  | case4 hnull htrue hfalse hminus =>
    intro h
    rw [skipScalar, if_neg hnull, if_neg htrue, if_neg hfalse, if_pos hminus,
      skipNumber_more h hrest]
  | case5 hnull htrue hfalse hminus hdigit =>
    intro h
    rw [skipScalar, if_neg hnull, if_neg htrue, if_neg hfalse, if_neg hminus, if_pos hdigit,
      ← List.cons_append, skipNumber_more h hrest]
  | case6 hnull htrue hfalse hminus hdigit hquote =>
    intro h
    rw [skipScalar, if_neg hnull, if_neg htrue, if_neg hfalse, if_neg hminus, if_neg hdigit,
      if_pos hquote, skipString_more h]
  | case7 => rintro ⟨⟩

theorem skipName_more {text rest : Bytes} (h : skipName text = .ok rest) (more : Bytes) :
  skipName (text ++ more) = .ok (rest ++ more)
  := by
  revert h
  fun_cases skipName text with
  | case4 name behind hread rest hspace hcolon =>
    rintro ⟨⟩
    simp only [skipName, skipSpace_more hspace, if_true, skipString_more hread,
      skipSpace_more hcolon]
  | _ => rintro ⟨⟩

/-- Inside of brackets something is read behind every value. -/
theorem skipFrom_after_ne_nil {bound text rest : Bytes} {stack : List Bracket}
    (h : skipFrom bound .after stack text = .ok rest) (hrest : rest ≠ []) :
  text ≠ []
  := by
  rintro rfl
  cases stack with
  | nil =>
    rw [skipFrom] at h
    cases h
    exact hrest rfl
  | cons b stack =>
    cases b with
    | list | object => cases bound <;> cases h

theorem skipFrom_more {bound bound' text rest : Bytes} {phase : Phase} {stack : List Bracket}
    (h : skipFrom bound phase stack text = .ok rest) (hrest : rest ≠ [])
    (hbound : bound.length ≤ bound'.length) (more : Bytes) :
  skipFrom bound' phase stack (text ++ more) = .ok (rest ++ more)
  := by
  have hopen : openObject ≠ openList := by decide
  have hcloseList : closeList ≠ comma := by decide
  have hcloseObject : closeObject ≠ comma := by decide
  -- the cases are the steps that do not fail, in the order of the definition
  fun_induction skipFrom bound phase stack text generalizing bound' with
  | case1 =>
    cases h
    rw [skipFrom]
  | case7 x bound stack text inside left hspace hclose ih =>
    obtain ⟨y, bound', rfl, hle⟩ := exists_cons_of_length_le hbound
    simp only [skipFrom, skipSpace_more hspace, skipSpace_more hclose, if_true]
    exact ih h hle
  | case8 x bound stack text inside c left hitem hc hspace ih =>
    obtain ⟨y, bound', rfl, hle⟩ := exists_cons_of_length_le hbound
    simp only [skipFrom, skipSpace_more hspace, skipSpace_more hitem, if_true, if_neg hc]
    exact ih h hle
  | case10 x bound stack text inside left hspace _ hclose ih =>
    obtain ⟨y, bound', rfl, hle⟩ := exists_cons_of_length_le hbound
    simp only [skipFrom, skipSpace_more hspace, skipSpace_more hclose, if_true, if_neg hopen]
    exact ih h hle
  | case12 x bound stack text inside c left hmember hc behind hname hspace _ ih =>
    obtain ⟨y, bound', rfl, hle⟩ := exists_cons_of_length_le hbound
    have hmore := skipName_more hname more
    rw [List.cons_append] at hmore
    simp only [skipFrom, skipSpace_more hspace, skipSpace_more hmember, if_true, if_neg hopen,
      if_neg hc, hmore]
    exact ih h hle
  | case14 x bound stack text c left hspace hlist hobject behind hscalar ih =>
    obtain ⟨y, bound', rfl, hle⟩ := exists_cons_of_length_le hbound
    have hmore := skipScalar_more hscalar (skipFrom_after_ne_nil h hrest) more
    simp only [skipFrom, skipSpace_more hspace, if_neg hlist, if_neg hobject, hmore]
    exact ih h hle
  | case16 x bound stack text left hspace ih =>
    obtain ⟨y, bound', rfl, hle⟩ := exists_cons_of_length_le hbound
    simp only [skipFrom, skipSpace_more hspace, if_true]
    exact ih h hle
  | case17 x bound stack text left hspace _ ih =>
    obtain ⟨y, bound', rfl, hle⟩ := exists_cons_of_length_le hbound
    simp only [skipFrom, skipSpace_more hspace, if_true, if_neg hcloseList]
    exact ih h hle
  | case21 x bound stack text left behind hname hspace ih =>
    obtain ⟨y, bound', rfl, hle⟩ := exists_cons_of_length_le hbound
    simp only [skipFrom, skipSpace_more hspace, if_true, skipName_more hname]
    exact ih h hle
  | case22 x bound stack text left hspace _ ih =>
    obtain ⟨y, bound', rfl, hle⟩ := exists_cons_of_length_le hbound
    simp only [skipFrom, skipSpace_more hspace, if_true, if_neg hcloseObject]
    exact ih h hle
  | _ => cases h

/-- A value that is passed over and leaves something ends there in a longer text too. -/
theorem skip_more {text rest : Bytes} (h : skip text = .ok rest) (hrest : rest ≠ [])
    (more : Bytes) :
  skip (text ++ more) = .ok (rest ++ more)
  :=
  skipFrom_more h hrest (by simp) more

end StreamCall.Json
