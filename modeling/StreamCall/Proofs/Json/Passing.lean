import Mathlib.Tactic.Use
import StreamCall.Json.Skip
import StreamCall.Proofs.Json.Strings

/-!
# Passing over a value

`skip` passes over any value of the grammar and ends exactly behind it, however deeply the
value is nested (`skip_text`).  What follows the value has to be something that can follow
one, or else a number would not end there.
-/

namespace StreamCall.Json

open Grammar

/-! ### What can follow a value -/

/-- Whether a byte can follow a value. -/
def IsEnd (b : UInt8) : Prop :=
  isSpace b = true ∨ b = comma ∨ b = closeList ∨ b = closeObject

/-- Whether a value may end in front of these bytes. -/
def EndsValue (rest : Bytes) : Prop :=
  ∀ b ∈ rest.head?, IsEnd b

theorem endsValue_cons {b : UInt8} (h : IsEnd b) (rest : Bytes) :
  EndsValue (b :: rest)
  := by
  intro c hc
  cases hc
  exact h

theorem endsValue_blanksText (ws : List Blank) {rest : Bytes} (h : EndsValue rest) :
  EndsValue (blanksText ws ++ rest)
  := by
  cases ws with
  | nil => exact h
  | cons w ws => exact endsValue_cons (.inl (isSpace_byte w)) _

/-- What can follow a value is no part of a number. -/
theorem IsEnd.not_numeric {b : UInt8} (h : IsEnd b) :
  isDigit b = false ∧ isPoint b = false ∧ isExponentMark b = false
  := by
  rcases h with h | rfl | rfl | rfl
  · simp only [isSpace, Bool.or_eq_true, decide_eq_true_eq] at h
    rcases h with ((rfl | rfl) | rfl) | rfl
    all_goals decide
  all_goals decide

theorem EndsValue.nextIs_eq_false
    {rest : Bytes} (h : EndsValue rest) {p : UInt8 → Bool} (hp : ∀ b, IsEnd b → p b = false) :
  nextIs p rest = false
  := by
  cases rest with
  | nil => rfl
  | cons b rest => exact hp b (h b rfl)

/-! ### Numbers -/

theorem isDigit_digit (d : Fin 10) :
  isDigit (UInt8.ofNat (48 + d.val)) = true
  := by
  revert d
  decide

theorem not_isSign_digit (d : Fin 10) :
  isSign (UInt8.ofNat (48 + d.val)) = false
  := by
  revert d
  decide

theorem skipDigits_digitsText
    (ds : List (Fin 10)) {rest : Bytes} (h : nextIs isDigit rest = false) :
  skipDigits (digitsText ds ++ rest) = rest
  := by
  induction ds with
  | nil =>
    cases rest with
    | nil => rfl
    | cons b rest =>
      apply List.dropWhile_cons_of_neg
      rw [show isDigit b = false from h]
      decide
  | cons d ds ih =>
    apply Eq.trans (List.dropWhile_cons_of_pos (isDigit_digit d))
    exact ih

theorem skipExponent_text (e : Exponent) {rest : Bytes} (h : nextIs isDigit rest = false) :
  skipExponent (e.sign.text ++ (e.digits.text ++ rest)) = .ok rest
  := by
  obtain ⟨isUpper, sign, first, ds⟩ := e
  have hdigits : Digits.text ⟨first, ds⟩ ++ rest
      = UInt8.ofNat (48 + first.val) :: (digitsText ds ++ rest) := rfl
  have hstrip : ∀ t, (if nextIs isSign (sign.text ++ UInt8.ofNat (48 + first.val) :: t) then
        (sign.text ++ UInt8.ofNat (48 + first.val) :: t).tail
      else sign.text ++ UInt8.ofNat (48 + first.val) :: t)
      = UInt8.ofNat (48 + first.val) :: t := by
    intro t
    cases sign with
    | none =>
      apply if_neg
      rw [show nextIs isSign (Sign.none.text ++ UInt8.ofNat (48 + first.val) :: t) = false
        from not_isSign_digit first]
      decide
    | plus | minus => rfl
  rw [hdigits, skipExponent, hstrip]
  simp only [isDigit_digit, if_true, skipDigits_digitsText ds h]

theorem skipOptionalExponent_text (e : Option Exponent) {rest : Bytes} (h : EndsValue rest) :
  skipOptionalExponent (exponentText e ++ rest) = .ok rest
  := by
  cases e with
  | none =>
    have hnext := h.nextIs_eq_false fun b hb => hb.not_numeric.2.2
    simp only [exponentText, List.nil_append, skipOptionalExponent, hnext, Bool.false_eq_true,
      if_false]
  | some e =>
    have hnext : ∀ t, nextIs isExponentMark ((if e.isUpper then (0x45 : UInt8) else 0x65) :: t)
        = true := by
      intro t
      cases e.isUpper <;> rfl
    simp only [exponentText, Exponent.text, List.cons_append, skipOptionalExponent, hnext,
      if_true, List.tail_cons, List.append_assoc]
    exact skipExponent_text e (h.nextIs_eq_false fun b hb => hb.not_numeric.1)

theorem nextIs_exponentText
    (e : Option Exponent) {rest : Bytes} (h : EndsValue rest) {p : UInt8 → Bool}
    (hp : ∀ b, IsEnd b → p b = false) (hupper : p 0x45 = false) (hlower : p 0x65 = false) :
  nextIs p (exponentText e ++ rest) = false
  := by
  cases e with
  | none => exact h.nextIs_eq_false hp
  | some e =>
    obtain ⟨isUpper, sign, digits⟩ := e
    cases isUpper with
    | true => exact hupper
    | false => exact hlower

theorem skipFraction_text
    (f : Option Digits) (e : Option Exponent) {rest : Bytes} (h : EndsValue rest) :
  skipFraction (fractionText f ++ (exponentText e ++ rest)) = .ok rest
  := by
  cases f with
  | none =>
    have hnext := nextIs_exponentText e h (fun b hb => hb.not_numeric.2.1) rfl rfl
    simp only [fractionText, List.nil_append, skipFraction, hnext, Bool.false_eq_true,
      if_false, skipOptionalExponent_text e h]
  | some ds =>
    have hnext := nextIs_exponentText e h (fun b hb => hb.not_numeric.1) rfl rfl
    have hfirst : nextIs isDigit (ds.text ++ (exponentText e ++ rest)) = true :=
      isDigit_digit ds.first
    have hpoint : nextIs isPoint (0x2E :: (ds.text ++ (exponentText e ++ rest))) = true := rfl
    simp only [fractionText, List.cons_append, skipFraction, hpoint, if_true, List.tail_cons,
      hfirst]
    rw [Digits.text, skipDigits_digitsText _ hnext, skipOptionalExponent_text e h]

/-- A number is passed over behind its sign. -/
theorem skipNumber_text (n : Numeral) {rest : Bytes} (h : EndsValue rest) :
  skipNumber (n.magnitudeText ++ rest) = .ok rest
  := by
  obtain ⟨isNegative, whole, fraction, exponent⟩ := n
  simp only [Numeral.magnitudeText, List.append_assoc]
  cases whole with
  | zero =>
    have hnext : nextIs isDigit (fractionText fraction ++ (exponentText exponent ++ rest))
        = false := by
      cases fraction with
      | none => exact nextIs_exponentText exponent h (fun b hb => hb.not_numeric.1) rfl rfl
      | some ds => rfl
    simp only [Whole.text, List.cons_append, List.nil_append, skipNumber, if_true, hnext,
      Bool.false_eq_true, if_false, skipFraction_text fraction exponent h]
  | positive first ds =>
    have hdigit : isDigit (UInt8.ofNat (49 + first.val)) = true
        ∧ UInt8.ofNat (49 + first.val) ≠ 0x30 := by
      revert first
      decide
    have hnext : nextIs isDigit (fractionText fraction ++ (exponentText exponent ++ rest))
        = false := by
      cases fraction with
      | none => exact nextIs_exponentText exponent h (fun b hb => hb.not_numeric.1) rfl rfl
      | some ds => rfl
    simp only [Whole.text, List.cons_append, skipNumber, if_neg hdigit.2, hdigit.1, if_true]
    rw [skipDigits_digitsText ds hnext, skipFraction_text fraction exponent h]

/-- The first byte of a number is a sign or a digit. -/
theorem exists_numeral_text (n : Numeral) :
  (n.text = 0x2D :: n.magnitudeText)
    ∨ ∃ b bs, isDigit b = true ∧ n.text = b :: bs ∧ n.magnitudeText = b :: bs
  := by
  obtain ⟨isNegative, whole, fraction, exponent⟩ := n
  cases isNegative with
  | true => exact .inl rfl
  | false =>
    right
    cases whole with
    | zero => exact ⟨0x30, _, rfl, rfl, rfl⟩
    | positive first ds =>
      refine ⟨UInt8.ofNat (49 + first.val), _, ?_, rfl, rfl⟩
      revert first
      decide

/-! ### Values without brackets -/

theorem word_append (w rest : Bytes) :
  word w (w ++ rest) = .ok rest
  := by
  induction w with
  | nil => rfl
  | cons b w ih => rw [List.cons_append, word, if_pos rfl, ih]

/-- Whether a byte can be the first of a value. -/
def IsStart (b : UInt8) : Prop :=
  isSpace b = false ∧ b ≠ closeList

/-- Whether a text is passed over as a value without brackets. -/
def IsScalarText (text : Bytes) : Prop :=
  ∃ b bs, text = b :: bs ∧ IsStart b ∧ b ≠ openList ∧ b ≠ openObject
    ∧ ∀ rest, EndsValue rest → skipScalar b (bs ++ rest) = .ok rest

theorem isScalarText_number (n : Numeral) :
  IsScalarText n.text
  := by
  rcases exists_numeral_text n with h | ⟨b, bs, hb, h, hmagnitude⟩
  · use 0x2D, n.magnitudeText, h
    refine ⟨⟨by decide, by decide⟩, by decide, by decide, ?_⟩
    intro rest hrest
    rw [skipScalar, if_neg (by decide), if_neg (by decide), if_neg (by decide), if_pos rfl,
      skipNumber_text n hrest]
  · have hne : ∀ c, isDigit c = false → b ≠ c := by
      rintro c hc rfl
      rw [hb] at hc
      cases hc
    have hspace : isSpace b = false := by
      simp only [isSpace, Bool.or_eq_false_iff, decide_eq_false_iff_not]
      exact ⟨⟨⟨hne _ rfl, hne _ rfl⟩, hne _ rfl⟩, hne _ rfl⟩
    use b, bs, h
    refine ⟨⟨hspace, hne _ rfl⟩, hne _ rfl, hne _ rfl, ?_⟩
    intro rest hrest
    rw [skipScalar, if_neg (hne _ rfl), if_neg (hne _ rfl), if_neg (hne _ rfl),
      if_neg (hne _ rfl), if_pos hb, ← List.cons_append, ← hmagnitude, skipNumber_text n hrest]

theorem isScalarText_string (l : Literal) :
  IsScalarText (literalText l)
  := by
  use quote, innerText l ++ [quote], rfl
  refine ⟨⟨by decide, by decide⟩, by decide, by decide, ?_⟩
  intro rest _
  rw [List.append_assoc]
  exact skipString_innerText l rest

theorem isScalarText_null :
  IsScalarText Value.null.text
  := by
  use 0x6E, ull, rfl
  refine ⟨⟨by decide, by decide⟩, by decide, by decide, ?_⟩
  intro rest _
  exact word_append ull rest

theorem isScalarText_boolean (b : Bool) :
  IsScalarText (Value.boolean b).text
  := by
  cases b with
  | true =>
    use 0x74, rue, rfl
    refine ⟨⟨by decide, by decide⟩, by decide, by decide, ?_⟩
    intro rest _
    exact word_append rue rest
  | false =>
    use 0x66, alse, rfl
    refine ⟨⟨by decide, by decide⟩, by decide, by decide, ?_⟩
    intro rest _
    exact word_append alse rest

/-- A value begins with a byte that can be the first of one. -/
theorem exists_text_eq_cons (v : Value) :
  ∃ b bs, v.text = b :: bs ∧ IsStart b
  := by
  have hscalar : ∀ {text}, IsScalarText text → ∃ b bs, text = b :: bs ∧ IsStart b := by
    rintro text ⟨b, bs, h, hstart, -⟩
    exact ⟨b, bs, h, hstart⟩
  cases v with
  | null => exact hscalar isScalarText_null
  | boolean b => exact hscalar (isScalarText_boolean b)
  | number n =>
    rw [Value.text]
    exact hscalar (isScalarText_number n)
  | string l =>
    rw [Value.text]
    exact hscalar (isScalarText_string l)
  | list items within =>
    rw [Value.text]
    exact ⟨openList, _, rfl, by decide, by decide⟩
  | object members within =>
    rw [Value.text]
    exact ⟨openObject, _, rfl, by decide, by decide⟩

/-- Blanks in front of a value are passed over. -/
theorem skipSpace_text (v : Value) (rest : Bytes) :
  skipSpace (v.text ++ rest) = v.text ++ rest
  := by
  obtain ⟨b, bs, h, hstart⟩ := exists_text_eq_cons v
  rw [h, List.cons_append, skipSpace_cons hstart.1]

/-! ### Steps of the machine -/

/-- From `phase` inside of the brackets of `stack` the machine passes over `text` and comes to
`phase'` inside of those of `stack'`, in front of `rest`. -/
def Passes (phase : Phase) (stack : List Bracket) (text : Bytes) (phase' : Phase)
    (stack' : List Bracket) (rest : Bytes) : Prop :=
  ∀ bound : Bytes, (text ++ rest).length ≤ bound.length →
    ∃ bound' : Bytes, rest.length ≤ bound'.length
      ∧ skipFrom bound phase stack (text ++ rest) = skipFrom bound' phase' stack' rest

theorem Passes.trans
    {phase phase' phase'' : Phase} {stack stack' stack'' : List Bracket}
    {text text' rest : Bytes} (h : Passes phase stack text phase' stack' (text' ++ rest))
    (h' : Passes phase' stack' text' phase'' stack'' rest) :
  Passes phase stack (text ++ text') phase'' stack'' rest
  := by
  intro bound hbound
  rw [List.append_assoc] at hbound ⊢
  obtain ⟨bound', hbound', heq⟩ := h bound hbound
  obtain ⟨bound'', hbound'', heq'⟩ := h' bound' hbound'
  exact ⟨bound'', hbound'', heq.trans heq'⟩

/-- A single step that takes at least one byte. -/
theorem Passes.of_step
    {phase phase' : Phase} {stack stack' : List Bracket} {text rest : Bytes}
    (hne : text ≠ [])
    (h : ∀ x bound, skipFrom (x :: bound) phase stack (text ++ rest)
      = skipFrom bound phase' stack' rest) :
  Passes phase stack text phase' stack' rest
  := by
  intro bound hbound
  obtain ⟨b, text, rfl⟩ := List.exists_cons_of_ne_nil hne
  cases bound with
  | nil => cases hbound
  | cons x bound =>
    use bound
    constructor
    · simp only [List.cons_append, List.length_cons, List.length_append] at hbound
      omega
    · exact h x bound

/-- Blanks in front of a value make no difference. -/
theorem Passes.blanks
    {stack stack' : List Bracket} {phase' : Phase} {text rest : Bytes} (hne : text ≠ [])
    (ws : List Blank) (h : Passes .value stack text phase' stack' rest) :
  Passes .value stack (blanksText ws ++ text) phase' stack' rest
  := by
  intro bound hbound
  obtain ⟨b, text, rfl⟩ := List.exists_cons_of_ne_nil hne
  simp only [List.length_append, List.length_cons] at hbound
  obtain ⟨bound', hbound', heq⟩ := h bound (by
    simp only [List.length_append, List.length_cons]
    omega)
  use bound', hbound'
  rw [← heq, List.append_assoc]
  cases bound with
  | nil => simp at hbound
  | cons x bound => rw [skipFrom, skipFrom, skipSpace_blanksText]

theorem IsScalarText.passes
    {text : Bytes} (h : IsScalarText text) (stack : List Bracket) {rest : Bytes}
    (hrest : EndsValue rest) :
  Passes .value stack text .after stack rest
  := by
  obtain ⟨b, bs, rfl, hstart, hlist, hobject, hskip⟩ := h
  apply Passes.of_step (List.cons_ne_nil _ _)
  intro x bound
  rw [List.cons_append, skipFrom, skipSpace_cons hstart.1]
  simp only [if_neg hlist, if_neg hobject, hskip rest hrest]

/-! ### Lists and objects -/

/-- What stands behind an element of a list, up to the closing bracket. -/
def behindItem (after : List Blank) (items : List (Padded Value)) (within : List Blank) :
    Bytes :=
  blanksText after ++ (itemsText false items ++ (blanksText within ++ [closeList]))

/-- What stands behind a member of an object, up to the closing bracket. -/
def behindMember (after : List Blank) (members : List (Member Value)) (within : List Blank) :
    Bytes :=
  blanksText after ++ (membersText false members ++ (blanksText within ++ [closeObject]))

/-- What stands in front of the value of a member. -/
def nameText (before : List Blank) (name : Literal) (behind : List Blank) : Bytes :=
  blanksText before ++ (literalText name ++ (blanksText behind ++ [colon]))

theorem text_list_cons
    (before after within : List Blank) (v : Value) (items : List (Padded Value)) :
  (Value.list (⟨before, v, after⟩ :: items) within).text
    = openList :: blanksText before ++ (v.text ++ behindItem after items within)
  := by
  simp [Value.text, itemsText, separator, behindItem]

theorem behindItem_cons
    (ws before after within : List Blank) (v : Value) (items : List (Padded Value)) :
  behindItem ws (⟨before, v, after⟩ :: items) within
    = blanksText ws ++ [comma]
      ++ ((blanksText before ++ v.text) ++ behindItem after items within)
  := by
  simp [itemsText, separator, behindItem]

theorem text_object_cons
    (before behind before' after within : List Blank) (name : Literal) (v : Value)
    (members : List (Member Value)) :
  (Value.object (⟨⟨before, name, behind⟩, ⟨before', v, after⟩⟩ :: members) within).text
    = openObject :: nameText before name behind
      ++ ((blanksText before' ++ v.text) ++ behindMember after members within)
  := by
  simp [Value.text, membersText, separator, behindMember, nameText]

theorem behindMember_cons
    (ws before behind before' after within : List Blank) (name : Literal) (v : Value)
    (members : List (Member Value)) :
  behindMember ws (⟨⟨before, name, behind⟩, ⟨before', v, after⟩⟩ :: members) within
    = blanksText ws ++ (comma :: nameText before name behind)
      ++ ((blanksText before' ++ v.text) ++ behindMember after members within)
  := by
  simp [membersText, separator, behindMember, nameText]

theorem endsValue_behindItem
    (after : List Blank) (items : List (Padded Value)) (within : List Blank) (rest : Bytes) :
  EndsValue (behindItem after items within ++ rest)
  := by
  rw [behindItem, List.append_assoc]
  apply endsValue_blanksText
  cases items with
  | nil =>
    rw [itemsText, List.nil_append, List.append_assoc]
    apply endsValue_blanksText
    exact endsValue_cons (.inr (.inr (.inl rfl))) _
  | cons p items =>
    rw [itemsText]
    exact endsValue_cons (.inr (.inl rfl)) _

theorem endsValue_behindMember
    (after : List Blank) (members : List (Member Value)) (within : List Blank)
    (rest : Bytes) :
  EndsValue (behindMember after members within ++ rest)
  := by
  rw [behindMember, List.append_assoc]
  apply endsValue_blanksText
  cases members with
  | nil =>
    rw [membersText, List.nil_append, List.append_assoc]
    apply endsValue_blanksText
    exact endsValue_cons (.inr (.inr (.inr rfl))) _
  | cons m members =>
    rw [membersText]
    exact endsValue_cons (.inr (.inl rfl)) _

/-- A name and its colon are passed over, whether or not blanks stand before them. -/
theorem skipName_skipSpace
    (before : List Blank) (name : Literal) (behind : List Blank) (rest : Bytes) :
  skipName (skipSpace (nameText before name behind ++ rest)) = .ok rest
  := by
  rw [skipName, skipSpace_skipSpace, nameText, List.append_assoc, skipSpace_blanksText,
    literalText, List.append_assoc, List.cons_append, skipSpace_cons (by decide)]
  simp only [if_true, List.append_assoc, List.cons_append, List.nil_append,
    skipString_innerText, skipSpace_blanksText]
  rw [skipSpace_cons (by decide)]
  simp only [if_true]

/-- A name begins with a quote. -/
theorem skipSpace_nameText
    (before : List Blank) (name : Literal) (behind : List Blank) (rest : Bytes) :
  ∃ rest', skipSpace (nameText before name behind ++ rest) = quote :: rest'
  := by
  rw [nameText, List.append_assoc, skipSpace_blanksText, literalText, List.append_assoc,
    List.cons_append, skipSpace_cons (by decide)]
  exact ⟨_, rfl⟩

theorem passes_openList
    (stack : List Bracket) (before : List Blank) (v : Value) (behind rest : Bytes) :
  Passes .value stack (openList :: blanksText before) .value (.list :: stack)
    ((v.text ++ behind) ++ rest)
  := by
  obtain ⟨b, bs, hv, hstart⟩ := exists_text_eq_cons v
  rw [List.append_assoc]
  have hspace := skipSpace_text v (behind ++ rest)
  rw [hv, List.cons_append] at hspace
  apply Passes.of_step (List.cons_ne_nil _ _)
  intro x bound
  rw [hv, List.cons_append, List.cons_append, skipFrom, skipSpace_cons (by decide)]
  simp only [if_true, skipSpace_blanksText, hspace, if_neg hstart.2]

theorem passes_closeList
    (stack : List Bracket) (ws within : List Blank) (rest : Bytes) :
  Passes .after (.list :: stack) (behindItem ws [] within) .after stack rest
  := by
  apply Passes.of_step
  · simp [behindItem]
  intro x bound
  rw [behindItem, itemsText, List.nil_append, skipFrom, List.append_assoc,
    skipSpace_blanksText, List.append_assoc, skipSpace_blanksText, List.singleton_append,
    skipSpace_cons (by decide)]
  simp only [if_neg (show ¬closeList = comma by decide), if_true]

theorem passes_commaInList
    (stack : List Bracket) (ws : List Blank) (rest : Bytes) :
  Passes .after (.list :: stack) (blanksText ws ++ [comma]) .value (.list :: stack) rest
  := by
  apply Passes.of_step
  · simp
  intro x bound
  rw [skipFrom, List.append_assoc, skipSpace_blanksText, List.singleton_append,
    skipSpace_cons (by decide)]
  simp only [if_true]

theorem passes_openObject
    (stack : List Bracket) (before : List Blank) (name : Literal) (behind : List Blank)
    (rest : Bytes) :
  Passes .value stack (openObject :: nameText before name behind) .value (.object :: stack)
    rest
  := by
  obtain ⟨rest', hrest'⟩ := skipSpace_nameText before name behind rest
  have hname := skipName_skipSpace before name behind rest
  rw [hrest'] at hname
  apply Passes.of_step (List.cons_ne_nil _ _)
  intro x bound
  rw [List.cons_append, skipFrom, skipSpace_cons (by decide)]
  simp only [if_neg (show ¬openObject = openList by decide), if_true, hrest',
    if_neg (show ¬quote = closeObject by decide), hname]

theorem passes_closeObject
    (stack : List Bracket) (ws within : List Blank) (rest : Bytes) :
  Passes .after (.object :: stack) (behindMember ws [] within) .after stack rest
  := by
  apply Passes.of_step
  · simp [behindMember]
  intro x bound
  rw [behindMember, membersText, List.nil_append, skipFrom, List.append_assoc,
    skipSpace_blanksText, List.append_assoc, skipSpace_blanksText, List.singleton_append,
    skipSpace_cons (by decide)]
  simp only [if_neg (show ¬closeObject = comma by decide), if_true]

theorem passes_commaInObject
    (stack : List Bracket) (ws before : List Blank) (name : Literal) (behind : List Blank)
    (rest : Bytes) :
  Passes .after (.object :: stack) (blanksText ws ++ (comma :: nameText before name behind))
    .value (.object :: stack) rest
  := by
  have hname := skipName_skipSpace before name behind rest
  rw [skipName, skipSpace_skipSpace, ← skipName] at hname
  apply Passes.of_step
  · simp
  intro x bound
  rw [skipFrom, List.append_assoc, skipSpace_blanksText, List.cons_append,
    skipSpace_cons (by decide)]
  simp only [if_true, hname]

mutual

/-- The machine passes over any value. -/
theorem passes_text :
    ∀ (v : Value) (stack : List Bracket) {rest : Bytes}, EndsValue rest →
      Passes .value stack v.text .after stack rest
  | .null, stack, _, hrest => isScalarText_null.passes stack hrest
  | .boolean b, stack, _, hrest => (isScalarText_boolean b).passes stack hrest
  | .number n, stack, _, hrest => by
    rw [Value.text]
    exact (isScalarText_number n).passes stack hrest
  | .string l, stack, _, hrest => by
    rw [Value.text]
    exact (isScalarText_string l).passes stack hrest
  | .list [] within, stack, rest, _ => by
    apply Passes.of_step
    · simp [Value.text]
    intro x bound
    rw [Value.text, itemsText, List.nil_append, List.cons_append, List.append_assoc, skipFrom,
      skipSpace_cons (by decide)]
    simp only [if_true, skipSpace_blanksText, List.singleton_append]
    rw [skipSpace_cons (by decide)]
    simp only [if_true]
  | .list (⟨before, v, after⟩ :: items) within, stack, rest, _ => by
    rw [text_list_cons]
    apply Passes.trans (passes_openList stack before v _ _)
    apply Passes.trans (passes_text v _ (endsValue_behindItem after items within rest))
    exact passes_behindItem items after within stack rest
  | .object [] within, stack, rest, _ => by
    apply Passes.of_step
    · simp [Value.text]
    intro x bound
    rw [Value.text, membersText, List.nil_append, List.cons_append, List.append_assoc,
      skipFrom, skipSpace_cons (by decide)]
    simp only [if_neg (show ¬openObject = openList by decide), if_true, skipSpace_blanksText,
      List.singleton_append]
    rw [skipSpace_cons (by decide)]
    simp only [if_true]
  | .object (⟨⟨before, name, behind⟩, ⟨before', v, after⟩⟩ :: members) within, stack, rest,
      _ => by
    rw [text_object_cons]
    apply Passes.trans (passes_openObject stack before name behind _)
    apply Passes.trans
    · apply Passes.blanks
      · obtain ⟨b, bs, hv, -⟩ := exists_text_eq_cons v
        simp [hv]
      · exact passes_text v _ (endsValue_behindMember after members within rest)
    · exact passes_behindMember members after within stack rest

theorem passes_behindItem :
    ∀ (items : List (Padded Value)) (after within : List Blank) (stack : List Bracket)
      (rest : Bytes), Passes .after (.list :: stack) (behindItem after items within) .after
        stack rest
  | [], after, within, stack, rest => passes_closeList stack after within rest
  | ⟨before, v, after'⟩ :: items, after, within, stack, rest => by
    rw [behindItem_cons]
    apply Passes.trans (passes_commaInList stack after _)
    apply Passes.trans
    · apply Passes.blanks
      · obtain ⟨b, bs, hv, -⟩ := exists_text_eq_cons v
        simp [hv]
      · exact passes_text v _ (endsValue_behindItem after' items within rest)
    · exact passes_behindItem items after' within stack rest

theorem passes_behindMember :
    ∀ (members : List (Member Value)) (after within : List Blank) (stack : List Bracket)
      (rest : Bytes), Passes .after (.object :: stack) (behindMember after members within)
        .after stack rest
  | [], after, within, stack, rest => passes_closeObject stack after within rest
  | ⟨⟨before, name, behind⟩, ⟨before', v, after'⟩⟩ :: members, after, within, stack, rest => by
    rw [behindMember_cons]
    apply Passes.trans (passes_commaInObject stack after before name behind _)
    apply Passes.trans
    · apply Passes.blanks
      · obtain ⟨b, bs, hv, -⟩ := exists_text_eq_cons v
        simp [hv]
      · exact passes_text v _ (endsValue_behindMember after' members within rest)
    · exact passes_behindMember members after' within stack rest

end

/-- A value is passed over to its end, whatever blanks stand before it. -/
theorem skip_text (before : List Blank) (v : Value) {rest : Bytes} (hrest : EndsValue rest) :
  skip (blanksText before ++ (v.text ++ rest)) = .ok rest
  := by
  have hne : v.text ≠ [] := by
    obtain ⟨b, bs, hv, -⟩ := exists_text_eq_cons v
    simp [hv]
  have hpasses := (passes_text v [] hrest).blanks hne before
  obtain ⟨bound, -, heq⟩ := hpasses (blanksText before ++ v.text ++ rest) (Nat.le_refl _)
  rw [skip, ← List.append_assoc, heq]
  cases bound <;> rfl

end StreamCall.Json
