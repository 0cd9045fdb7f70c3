import StreamCall.Proofs.Json.Grammar

/-!
# Strings of a document

A spelled string is read as the text it spells, and refused if it spells none
(`toOption_string`); passing over it takes exactly the string (`skipString_innerText`).  The
bytes of a character are those that UTF-8 gives it, be it spelled as itself or by an escape.
-/

namespace StreamCall

/-! ### Text as bytes -/

namespace Utf8

/-- The bytes of a text are those of its characters one after the other. -/
theorem encode_eq_flatMap (s : String) :
  encode s = s.toList.flatMap String.utf8EncodeChar
  := by
  rw [encode, String.toUTF8_eq_toByteArray, ← String.utf8Encode_toList, List.utf8Encode]
  apply List.toList_data_toByteArray

theorem encode_ofList (cs : List Char) :
  encode (String.ofList cs) = cs.flatMap String.utf8EncodeChar
  := by
  rw [encode_eq_flatMap, String.toList_ofList]

/-- The bytes of characters are read back as the text of these characters. -/
theorem decode?_flatMap (cs : List Char) :
  decode? (cs.flatMap String.utf8EncodeChar) = some (String.ofList cs)
  := by
  rw [← encode_ofList, decode?_encode]

/-- A byte of a character is the character itself, or it lies beyond ASCII. -/
theorem toNat_of_mem_utf8EncodeChar
    {c : Char} {b : UInt8} (h : b ∈ String.utf8EncodeChar c) :
  b.toNat = c.toNat ∨ 0x80 ≤ b.toNat
  := by
  have hc : c.toNat = c.val.toNat := rfl
  revert h
  fun_cases String.utf8EncodeChar c with
  | case1 v hv =>
    simp only [List.mem_singleton]
    rintro rfl
    left
    rw [UInt8.toNat_ofNat', hc]
    omega
  | case2 v | case3 v | case4 v =>
    simp only [List.mem_cons, List.not_mem_nil, or_false]
    intro h
    right
    obtain ⟨n, hn, rfl⟩ : ∃ n, 0x80 ≤ n % 256 ∧ b = UInt8.ofNat n := by
      rcases h with rfl | rfl | rfl | rfl
      all_goals exact ⟨_, by omega, rfl⟩
    rw [UInt8.toNat_ofNat']
    exact hn

end Utf8

namespace Json

open Grammar

/-- A code point is written as UTF-8 writes its character. -/
theorem reverse_codePointReversed (c : Char) :
  (codePointReversed c.toNat).reverse = String.utf8EncodeChar c
  := by
  have hlt : c.toNat < 0x110000 := by
    rcases c.valid with h | h
    · exact Nat.lt_trans h (by decide)
    · exact h.2
  have hc : c.val.toNat = c.toNat := rfl
  unfold codePointReversed String.utf8EncodeChar
  simp only [hc]
  generalize c.toNat = n at hlt
  by_cases h₁ : n ≤ 0x7F
  · rw [if_pos (by omega), if_pos h₁]
    rfl
  rw [if_neg (by omega), if_neg h₁]
  by_cases h₂ : n ≤ 0x7FF
  · rw [if_pos (by omega), if_pos h₂, show n / 64 % 32 = n / 64 by omega]
    simp [Nat.add_comm]
  rw [if_neg (by omega), if_neg h₂]
  by_cases h₃ : n ≤ 0xFFFF
  · rw [if_pos (by omega), if_pos h₃, show n / 4096 % 16 = n / 4096 by omega]
    simp [Nat.add_comm]
  · rw [if_neg (by omega), if_neg h₃, show n / 262144 % 8 = n / 262144 by omega]
    simp [Nat.add_comm]

theorem codePointReversed_toNat (c : Char) :
  codePointReversed c.toNat = (String.utf8EncodeChar c).reverse
  := by
  rw [← reverse_codePointReversed, List.reverse_reverse]

/-! ### Blanks -/

theorem isSpace_byte (b : Blank) :
  isSpace b.byte = true
  := by
  cases b <;> rfl

/-- Blanks in front are passed over. -/
@[simp]
theorem skipSpace_blanksText (ws : List Blank) (rest : Bytes) :
  skipSpace (blanksText ws ++ rest) = skipSpace rest
  := by
  induction ws with
  | nil => rfl
  | cons b ws ih =>
    rw [← ih]
    apply List.dropWhile_cons_of_pos (isSpace_byte b)

theorem skipSpace_cons {b : UInt8} (h : isSpace b = false) (rest : Bytes) :
  skipSpace (b :: rest) = b :: rest
  := by
  apply List.dropWhile_cons_of_neg
  simp [h]

theorem skipSpace_skipSpace (rest : Bytes) :
  skipSpace (skipSpace rest) = skipSpace rest
  := by
  induction rest with
  | nil => rfl
  | cons b rest ih =>
    cases h : isSpace b with
    | true =>
      have hdrop : skipSpace (b :: rest) = skipSpace rest := List.dropWhile_cons_of_pos h
      rw [hdrop, ih]
    | false => rw [skipSpace_cons h, skipSpace_cons h]

/-! ### Escapes -/

theorem hexValue?_byte (d : HexDigit) :
  hexValue? d.byte = some d.value.val
  := by
  obtain ⟨value, isUpper⟩ := d
  revert value isUpper
  decide

/-- Four digits are read as the code unit they spell. -/
theorem hexEscape_unit (u : CodeUnit) (rest : Bytes) :
  hexEscape (u.a.byte :: u.b.byte :: u.c.byte :: u.d.byte :: rest) = .ok (u.value, rest)
  := by
  simp [hexEscape, hexQuad?, hexValue?_byte, CodeUnit.value]

theorem value_lt (u : CodeUnit) :
  u.value < 0x10000
  := by
  have ha := u.a.value.isLt
  have hb := u.b.value.isLt
  have hc := u.c.value.isLt
  have hd := u.d.value.isLt
  rw [CodeUnit.value]
  omega

theorem toNat_ofNat {n : Nat} (h : n.isValidChar) :
  (Char.ofNat n).toNat = n
  := by
  rw [Char.ofNat, dif_pos h]
  rfl

/-- A letter behind a backslash is read as the character it stands for. -/
theorem escape_letter (e : Escape) (rest : Bytes) :
  escape (e.letter :: rest) = .ok ((String.utf8EncodeChar e.char).reverse, rest)
  := by
  cases e <;> rfl

/-- A code unit outside of the surrogates is read as its character. -/
theorem escape_unit
    {u : CodeUnit} (hh : ¬u.IsHigh) (hl : ¬u.IsLow) (rest : Bytes) :
  escape (0x75 :: u.a.byte :: u.b.byte :: u.c.byte :: u.d.byte :: rest)
    = .ok ((String.utf8EncodeChar (Char.ofNat u.value)).reverse, rest)
  := by
  have hlt := value_lt u
  have hvalid : u.value.isValidChar := by
    rw [CodeUnit.IsHigh] at hh
    rw [CodeUnit.IsLow] at hl
    unfold Nat.isValidChar
    omega
  rw [CodeUnit.IsHigh] at hh
  rw [CodeUnit.IsLow] at hl
  simp only [escape, unicodeEscape, hexEscape_unit, if_neg hl, if_neg hh, if_true]
  rw [← codePointReversed_toNat, toNat_ofNat hvalid]

/-- A surrogate pair is read as the character it stands for. -/
theorem escape_pair
    {u v : CodeUnit} (hu : u.IsHigh) (hv : v.IsLow) (rest : Bytes) :
  escape (0x75 :: u.a.byte :: u.b.byte :: u.c.byte :: u.d.byte
      :: ((Piece.unit v).text ++ rest))
    = .ok ((String.utf8EncodeChar (pairChar u v)).reverse, rest)
  := by
  rw [CodeUnit.IsHigh] at hu
  rw [CodeUnit.IsLow] at hv
  have hul : ¬(0xDC00 ≤ u.value ∧ u.value ≤ 0xDFFF) := by omega
  have hvalid : (0x10000 + (u.value - 0xD800) * 1024 + (v.value - 0xDC00)).isValidChar := by
    unfold Nat.isValidChar
    omega
  simp only [escape, unicodeEscape, hexEscape_unit, if_neg hul, if_pos hu, lowSurrogate,
    Piece.text, List.cons_append, List.nil_append, if_true, if_pos hv]
  rw [← codePointReversed_toNat, pairChar, toNat_ofNat hvalid]

/-- A second half of a surrogate pair is refused where a character should begin. -/
theorem escape_low {u : CodeUnit} (hu : u.IsLow) (rest : Bytes) :
  (escape (0x75 :: u.a.byte :: u.b.byte :: u.c.byte :: u.d.byte :: rest)).toOption = none
  := by
  rw [CodeUnit.IsLow] at hu
  simp only [escape, unicodeEscape, hexEscape_unit, if_pos hu, if_true]
  rfl

/-! ### Pieces of a string -/

/-- Whether a byte stands for itself between quotes. -/
def IsPlainByte (b : UInt8) : Prop := b ≠ quote ∧ b ≠ backslash ∧ ¬b < 0x20

theorem isPlainByte_of_mem (c : PlainChar) {b : UInt8} (h : b ∈ String.utf8EncodeChar c.char) :
  IsPlainByte b
  := by
  obtain ⟨c, hlt, hquote, hbackslash⟩ := c
  have hne : ∀ d : Char, d.toNat < 0x80 → c ≠ d → b.toNat ≠ d.toNat := by
    intro d hd hcd hbd
    rcases Utf8.toNat_of_mem_utf8EncodeChar h with hb | hb
    · apply hcd
      apply Char.toNat_inj.mp
      rw [← hbd, hb]
    · omega
  refine ⟨?_, ?_, ?_⟩
  · rintro rfl
    exact hne '"' (by decide) hquote rfl
  · rintro rfl
    exact hne '\\' (by decide) hbackslash rfl
  · rw [UInt8.lt_iff_toNat_lt]
    rcases Utf8.toNat_of_mem_utf8EncodeChar h with hb | hb
    · rw [hb]
      exact Nat.not_lt.mpr hlt
    · apply Nat.not_lt.mpr (Nat.le_trans _ hb)
      decide

/-- The first half of a surrogate pair is refused where no second half follows. -/
theorem escape_high
    {u : CodeUnit} (hu : u.IsHigh) (l : Literal)
    (hl : ∀ v l', l = .unit v :: l' → ¬v.IsLow) (rest : Bytes) :
  (escape (0x75 :: u.a.byte :: u.b.byte :: u.c.byte :: u.d.byte
      :: (innerText l ++ quote :: rest))).toOption
    = none
  := by
  have hul : ¬(0xDC00 ≤ u.value ∧ u.value ≤ 0xDFFF) := by
    rw [CodeUnit.IsHigh] at hu
    omega
  rw [CodeUnit.IsHigh] at hu
  simp only [escape, unicodeEscape, hexEscape_unit, if_neg hul, if_pos hu, if_true]
  cases l with
  | nil => rfl
  | cons p l =>
    rw [innerText, List.flatMap_cons]
    cases p with
    | plain c =>
      obtain ⟨b, bs, hbs⟩ : ∃ b bs, String.utf8EncodeChar c.char = b :: bs :=
        List.exists_cons_of_ne_nil String.utf8EncodeChar_ne_nil
      have hb : b ≠ backslash := (isPlainByte_of_mem c (hbs ▸ List.mem_cons_self)).2.1
      simp only [Piece.text, hbs, List.cons_append, lowSurrogate, if_neg hb]
      rfl
    | escape e => cases e <;> rfl
    | unit v =>
      have hv := hl v l rfl
      rw [CodeUnit.IsLow] at hv
      simp only [Piece.text, List.cons_append, List.nil_append, lowSurrogate, if_true,
        hexEscape_unit, if_neg hv]
      rfl

/-! ### Reading a string -/

/-- Plain bytes are taken as they are. -/
theorem stringBytes_append
    {bs : Bytes} (hbs : ∀ b ∈ bs, IsPlainByte b) {bound : Bytes}
    (hbound : bs.length ≤ bound.length) (out rest : Bytes) :
  stringBytes bound out (bs ++ rest)
    = stringBytes (bound.drop bs.length) (bs.reverse ++ out) rest
  := by
  induction bs generalizing bound out with
  | nil => rfl
  | cons b bs ih =>
    cases bound with
    | nil => cases hbound
    | cons x bound =>
      obtain ⟨hquote, hbackslash, hlow⟩ := hbs b List.mem_cons_self
      rw [List.cons_append, stringBytes, if_neg hquote, if_neg hbackslash, if_neg hlow,
        ih (fun b hb => hbs b (List.mem_cons_of_mem _ hb)) (Nat.le_of_succ_le_succ hbound)]
      simp

/-- An escape is replaced by what it stands for. -/
theorem stringBytes_escape
    {text bytes rest : Bytes} (h : escape text = .ok (bytes, rest)) {bound : Bytes}
    (hbound : 0 < bound.length) (out : Bytes) :
  stringBytes bound out (backslash :: text) = stringBytes (bound.drop 1) (bytes ++ out) rest
  := by
  cases bound with
  | nil => cases hbound
  | cons x bound =>
    rw [stringBytes, if_neg (by decide), if_pos rfl, h]
    rfl

theorem stringBytes_badEscape
    {text : Bytes} (h : (escape text).toOption = none) (bound out : Bytes) :
  (stringBytes bound out (backslash :: text)).toOption = none
  := by
  cases bound with
  | nil => rfl
  | cons x bound =>
    rw [stringBytes, if_neg (by decide), if_pos rfl]
    cases he : escape text with
    | error f => rfl
    | ok r =>
      rw [he] at h
      cases h

/-- What a string reads as: the bytes of what it spells, behind those before it. -/
def spelledBehind (out rest : Bytes) (cs : List Char) : Bytes × Bytes :=
  (out.reverse ++ cs.flatMap String.utf8EncodeChar, rest)

theorem map_spelledBehind (o : Option (List Char)) (c : Char) (out rest : Bytes) :
  o.map (spelledBehind ((String.utf8EncodeChar c).reverse ++ out) rest)
    = (o.map (c :: ·)).map (spelledBehind out rest)
  := by
  rw [Option.map_map]
  congr 1
  funext cs
  simp [spelledBehind]

theorem innerText_cons (p : Piece) (l : Literal) (rest : Bytes) :
  innerText (p :: l) ++ rest = p.text ++ (innerText l ++ rest)
  := by
  rw [innerText, List.flatMap_cons, List.append_assoc, innerText]

theorem unit_text_append (u : CodeUnit) (rest : Bytes) :
  (Piece.unit u).text ++ rest
    = backslash :: 0x75 :: u.a.byte :: u.b.byte :: u.c.byte :: u.d.byte :: rest
  := rfl

/-- A spelled string is read up to its closing quote. -/
theorem toOption_stringBytes
    (l : Literal) (rest bound out : Bytes)
    (hbound : (innerText l ++ quote :: rest).length ≤ bound.length) :
  (stringBytes bound out (innerText l ++ quote :: rest)).toOption
    = (chars? l).map (spelledBehind out rest)
  := by
  -- every piece takes at least one byte, so what is left of the bound suffices for the rest
  induction l using chars?.induct generalizing bound out with
  | case1 =>
    cases bound with
    | nil => cases hbound
    | cons x bound =>
      simp [innerText, stringBytes, chars?, spelledBehind, Except.toOption]
  | case2 c l ih =>
    rw [innerText_cons, List.length_append] at hbound
    rw [innerText_cons, Piece.text, stringBytes_append (fun b => isPlainByte_of_mem c), ih,
      map_spelledBehind, chars?]
    · rw [List.length_drop]
      exact Nat.le_sub_of_add_le' hbound
    · exact Nat.le_trans (Nat.le_add_right _ _) hbound
  | case3 e l ih =>
    rw [innerText_cons, Piece.text] at hbound ⊢
    simp only [List.cons_append, List.nil_append, List.length_cons] at hbound ⊢
    rw [stringBytes_escape (escape_letter e _) (by omega), ih, map_spelledBehind, chars?]
    rw [List.length_drop]
    omega
  | case4 u v l hu hv ih =>
    rw [innerText_cons, innerText_cons, unit_text_append, unit_text_append] at hbound
    simp only [List.length_cons] at hbound
    rw [innerText_cons, innerText_cons, unit_text_append,
      stringBytes_escape (escape_pair hu hv _) (by omega), ih, map_spelledBehind, chars?,
      if_pos hu, if_pos hv]
    rw [List.length_drop]
    omega
  | case5 u v l hu hv =>
    rw [innerText_cons, unit_text_append, stringBytes_badEscape, chars?, if_pos hu, if_neg hv]
    · rfl
    · apply escape_high hu
      rintro w l' ⟨rfl, rfl⟩
      exact hv
  | case6 u v l hh hu =>
    rw [innerText_cons, unit_text_append, stringBytes_badEscape (escape_low hu _), chars?,
      if_neg hh, if_pos hu]
    rfl
  | case7 u v l hh hl ih =>
    rw [innerText_cons, unit_text_append] at hbound ⊢
    simp only [List.length_cons] at hbound
    rw [stringBytes_escape (escape_unit hh hl _) (by omega), ih, map_spelledBehind, chars?,
      if_neg hh, if_neg hl]
    rw [List.length_drop]
    omega
  | case8 u l hl hu =>
    rw [innerText_cons, unit_text_append, stringBytes_badEscape, chars?, if_pos hu]
    · rfl
    · exact fun v l' h => hl v l' h
    · rcases hu with hu | hu
      · apply escape_high hu
        intro v l' h
        exact (hl v l' h).elim
      · exact escape_low hu _
  | case9 u l hl hu ih =>
    rw [innerText_cons, unit_text_append] at hbound ⊢
    simp only [List.length_cons] at hbound
    rw [stringBytes_escape (escape_unit (fun h => hu (.inl h)) (fun h => hu (.inr h)) _)
      (by omega), ih, map_spelledBehind, chars?, if_neg hu]
    · exact fun v l' h => hl v l' h
    · rw [List.length_drop]
      omega

/-- A spelled string is read as the text it spells, and refused if it spells none. -/
theorem toOption_string (l : Literal) (rest : Bytes) :
  (string (innerText l ++ quote :: rest)).toOption = (value? l).map (·, rest)
  := by
  have h := toOption_stringBytes l rest (innerText l ++ quote :: rest) [] (Nat.le_refl _)
  rw [string]
  cases hs : stringBytes (innerText l ++ quote :: rest) [] (innerText l ++ quote :: rest) with
  | error f =>
    rw [hs] at h
    rw [value?, Option.map_map]
    cases hc : chars? l with
    | none => rfl
    | some cs =>
      rw [hc] at h
      cases h
  | ok r =>
    rw [hs] at h
    obtain ⟨bytes, behind⟩ := r
    cases hc : chars? l with
    | none =>
      rw [hc] at h
      cases h
    | some cs =>
      rw [hc] at h
      simp only [spelledBehind, Except.toOption, Option.map_some, List.reverse_nil,
        List.nil_append, Option.some.injEq, Prod.mk.injEq] at h
      obtain ⟨rfl, rfl⟩ := h
      simp only [Utf8.decode?_flatMap, value?, hc, Option.map_some]
      rfl

/-! ### Passing over a string -/

theorem skipStringFrom_append
    {bs : Bytes} (hbs : ∀ b ∈ bs, IsPlainByte b) {bound : Bytes}
    (hbound : bs.length ≤ bound.length) (rest : Bytes) :
  skipStringFrom bound (bs ++ rest) = skipStringFrom (bound.drop bs.length) rest
  := by
  induction bs generalizing bound with
  | nil => rfl
  | cons b bs ih =>
    cases bound with
    | nil => cases hbound
    | cons x bound =>
      obtain ⟨hquote, hbackslash, hlow⟩ := hbs b List.mem_cons_self
      rw [List.cons_append, skipStringFrom, if_neg hquote, if_neg hbackslash, if_neg hlow,
        ih (fun b hb => hbs b (List.mem_cons_of_mem _ hb)) (Nat.le_of_succ_le_succ hbound)]
      rfl

theorem skipStringFrom_escape
    {text rest : Bytes} (h : skipEscape text = .ok rest) {bound : Bytes}
    (hbound : 0 < bound.length) :
  skipStringFrom bound (backslash :: text) = skipStringFrom (bound.drop 1) rest
  := by
  cases bound with
  | nil => cases hbound
  | cons x bound =>
    rw [skipStringFrom, if_neg (by decide), if_pos rfl, h]
    rfl

theorem skipEscape_letter (e : Escape) (rest : Bytes) :
  skipEscape (e.letter :: rest) = .ok rest
  := by
  cases e <;> rfl

theorem skipEscape_unit (u : CodeUnit) (rest : Bytes) :
  skipEscape (0x75 :: u.a.byte :: u.b.byte :: u.c.byte :: u.d.byte :: rest) = .ok rest
  := by
  rw [skipEscape, if_pos rfl, hexEscape_unit]

theorem skipStringFrom_innerText
    (l : Literal) (rest bound : Bytes)
    (hbound : (innerText l ++ quote :: rest).length ≤ bound.length) :
  skipStringFrom bound (innerText l ++ quote :: rest) = .ok rest
  := by
  induction l generalizing bound with
  | nil =>
    cases bound with
    | nil => cases hbound
    | cons x bound => rfl
  | cons p l ih =>
    rw [innerText_cons] at hbound ⊢
    cases p with
    | plain c =>
      rw [List.length_append] at hbound
      rw [Piece.text, skipStringFrom_append (fun b => isPlainByte_of_mem c), ih]
      · rw [List.length_drop]
        exact Nat.le_sub_of_add_le' hbound
      · exact Nat.le_trans (Nat.le_add_right _ _) hbound
    | escape e =>
      simp only [Piece.text, List.cons_append, List.nil_append, List.length_cons] at hbound ⊢
      rw [skipStringFrom_escape (skipEscape_letter e _) (by omega), ih]
      rw [List.length_drop]
      omega
    | unit u =>
      rw [unit_text_append] at hbound ⊢
      simp only [List.length_cons] at hbound
      rw [skipStringFrom_escape (skipEscape_unit u _) (by omega), ih]
      rw [List.length_drop]
      omega

/-- Whatever a string spells, passing over it ends behind its closing quote. -/
theorem skipString_innerText (l : Literal) (rest : Bytes) :
  skipString (innerText l ++ quote :: rest) = .ok rest
  := by
  apply skipStringFrom_innerText
  apply Nat.le_refl

end Json

end StreamCall
