import StreamCall.Proofs.Json.Strings
import StreamCall.Proofs.Envelope.Meaning

/-!
# Writing an envelope document

The writer of envelopes stays inside the grammar: the document of a body and of entries is
the text of an object with the two members (`written_text`), and every text in it is spelled
so that it says just this text (`value?_spelled`).
-/

namespace StreamCall.Envelope

open Json Json.Grammar

/-! ### Spelling a text -/

/-- A hexadecimal digit in lower case. -/
def lowerDigit (n : Nat) : HexDigit :=
  ⟨Fin.ofNat 16 n, false⟩

/-- The code unit of a control character. -/
def controlUnit (n : Nat) : CodeUnit :=
  ⟨lowerDigit 0, lowerDigit 0, lowerDigit (n / 16), lowerDigit (n % 16)⟩

/-- How a character is spelled. -/
def spelledChar (c : Char) : Piece :=
  if h : 0x20 ≤ c.toNat ∧ c ≠ '"' ∧ c ≠ '\\' then .plain ⟨c, h⟩
  else if c = '"' then .escape .quote
  else if c = '\\' then .escape .backslash
  else if c = '\x08' then .escape .backspace
  else if c = '\t' then .escape .tab
  else if c = '\n' then .escape .lineFeed
  else if c = '\x0c' then .escape .formFeed
  else if c = '\r' then .escape .carriageReturn
  else .unit (controlUnit c.toNat)

/-- How a text is spelled. -/
def spelled (s : String) : Literal :=
  s.toList.map spelledChar

/-- A character that does not stand for itself is a control character or one of two others. -/
theorem eq_or_lt_of_not_plain {c : Char} (h : ¬(0x20 ≤ c.toNat ∧ c ≠ '"' ∧ c ≠ '\\')) :
  c = '"' ∨ c = '\\' ∨ ∃ n < 0x20, c = Char.ofNat n
  := by
  by_cases hquote : c = '"'
  · exact .inl hquote
  by_cases hbackslash : c = '\\'
  · exact .inr (.inl hbackslash)
  · refine .inr (.inr ⟨c.toNat, ?_, (Char.ofNat_toNat c).symm⟩)
    apply Nat.lt_of_not_le
    intro hle
    exact h ⟨hle, hquote, hbackslash⟩

theorem writeByte_of_isPlainByte {b : UInt8} (h : IsPlainByte b) :
  writeByte b = [b]
  := by
  obtain ⟨hquote, hbackslash, hlt⟩ := h
  have hne : ∀ c : UInt8, c < 0x20 → b ≠ c := by
    rintro c hc rfl
    exact hlt hc
  rw [writeByte, if_neg (by simp [hquote, hbackslash]), if_neg (hne _ (by decide)),
    if_neg (hne _ (by decide)), if_neg (hne _ (by decide)), if_neg (hne _ (by decide)),
    if_neg (hne _ (by decide)), if_neg hlt]

/-- The bytes of a character are written as the character is spelled. -/
theorem flatMap_writeByte (c : Char) :
  (String.utf8EncodeChar c).flatMap writeByte = (spelledChar c).text
  := by
  by_cases h : 0x20 ≤ c.toNat ∧ c ≠ '"' ∧ c ≠ '\\'
  · rw [spelledChar, dif_pos h, Piece.text, List.flatMap]
    have hbyte : ∀ b ∈ String.utf8EncodeChar c, writeByte b = [b] := by
      intro b hb
      exact writeByte_of_isPlainByte (isPlainByte_of_mem ⟨c, h⟩ hb)
    rw [List.map_congr_left hbyte]
    exact List.flatMap_singleton' _
  · rcases eq_or_lt_of_not_plain h with rfl | rfl | ⟨n, hn, rfl⟩
    · decide
    · decide
    · revert n
      decide

/-- The character that a piece spells without what follows it. -/
def lone? : Piece → Option Char
  | .plain c => some c.char
  | .escape e => some e.char
  | .unit u => if u.IsHigh ∨ u.IsLow then none else some (Char.ofNat u.value)

theorem chars?_cons_of_lone {p : Piece} {c : Char} (h : lone? p = some c) (l : Literal) :
  chars? (p :: l) = (chars? l).map (c :: ·)
  := by
  cases p with
  | plain d =>
    cases h
    rw [chars?]
  | escape e =>
    cases h
    rw [chars?]
  | unit u =>
    rw [lone?] at h
    split at h
    · cases h
    rename_i hu
    cases h
    rw [not_or] at hu
    cases l with
    | nil => exact if_neg (not_or.mpr hu)
    | cons p l =>
      cases p with
      | unit v => rw [chars?, if_neg hu.1, if_neg hu.2]
      | plain d => exact if_neg (not_or.mpr hu)
      | escape e => exact if_neg (not_or.mpr hu)

theorem lone?_spelledChar (c : Char) :
  lone? (spelledChar c) = some c
  := by
  by_cases h : 0x20 ≤ c.toNat ∧ c ≠ '"' ∧ c ≠ '\\'
  · rw [spelledChar, dif_pos h]
    rfl
  · rcases eq_or_lt_of_not_plain h with rfl | rfl | ⟨n, hn, rfl⟩
    · rfl
    · rfl
    · revert n
      decide

/-- A spelled text says the text. -/
theorem value?_spelled (s : String) :
  value? (spelled s) = some s
  := by
  have hchars : ∀ cs : List Char, chars? (cs.map spelledChar) = some cs := by
    intro cs
    induction cs with
    | nil => rfl
    | cons c cs ih =>
      rw [List.map_cons, chars?_cons_of_lone (lone?_spelledChar c), ih]
      rfl
  rw [value?, spelled, hchars, Option.map_some, String.ofList_toList]

/-- A string is written as it is spelled. -/
theorem writeString_eq (s : String) :
  writeString s = literalText (spelled s)
  := by
  rw [writeString, literalText, innerText, spelled, Utf8.encode_eq_flatMap, List.flatMap_assoc,
    List.flatMap_map]
  simp only [flatMap_writeByte, List.cons_append]

/-! ### The text of a body -/

/-- Whether a byte is one of those that base64 texts are made of. -/
def IsBase64 (b : UInt8) : Prop :=
  IsPlainByte b ∧ b.toNat < 0x80

instance (b : UInt8) : Decidable (IsPlainByte b) :=
  inferInstanceAs (Decidable (b ≠ quote ∧ b ≠ backslash ∧ ¬b < 0x20))

instance (b : UInt8) : Decidable (IsBase64 b) :=
  inferInstanceAs (Decidable (IsPlainByte b ∧ b.toNat < 0x80))

theorem isBase64_symbol {n : Nat} (h : n < 64) :
  IsBase64 (Base64.symbol n)
  := by
  revert n
  decide

theorem isBase64_encode (body : Bytes) :
  ∀ b ∈ Base64.encode body, IsBase64 b
  := by
  have hpad : IsBase64 Base64.pad := by decide
  match body with
  | [] => simp [Base64.encode, Base64.encodeOnto]
  | [a] =>
    have ha := a.toNat_lt
    simp only [Base64.encode, Base64.encodeOnto, List.mem_reverse, List.forall_mem_cons]
    refine ⟨hpad, hpad, isBase64_symbol (by omega), isBase64_symbol (by omega), by simp⟩
  | [a, b] =>
    have ha := a.toNat_lt
    have hb := b.toNat_lt
    simp only [Base64.encode, Base64.encodeOnto, List.mem_reverse, List.forall_mem_cons]
    refine ⟨hpad, isBase64_symbol (by omega), isBase64_symbol (by omega),
      isBase64_symbol (by omega), by simp⟩
  | a :: b :: c :: rest =>
    have ha := a.toNat_lt
    have hb := b.toNat_lt
    have hc := c.toNat_lt
    rw [Base64.encode_cons₃, List.forall_mem_append]
    refine ⟨?_, isBase64_encode rest⟩
    simp only [Base64.quad, List.forall_mem_cons]
    refine ⟨isBase64_symbol (by omega), isBase64_symbol (by omega), isBase64_symbol (by omega),
      isBase64_symbol (by omega), by simp⟩

/-- The text whose bytes are given, all of them ASCII. -/
def asciiText (bytes : Bytes) : String :=
  String.ofList (bytes.map fun b => Char.ofNat b.toNat)

theorem encode_asciiText {bytes : Bytes} (h : ∀ b ∈ bytes, IsBase64 b) :
  Utf8.encode (asciiText bytes) = bytes
  := by
  have hchar : ∀ n < 0x80, String.utf8EncodeChar (Char.ofNat n) = [UInt8.ofNat n] := by
    decide
  rw [asciiText, Utf8.encode_ofList, List.flatMap_map]
  induction bytes with
  | nil => rfl
  | cons b bytes ih =>
    rw [List.forall_mem_cons] at h
    rw [List.flatMap_cons, ih h.2, hchar _ h.1.2, UInt8.ofNat_toNat]
    rfl

/-- The text of a body. -/
def bodyText (body : Bytes) : String :=
  asciiText (Base64.encode body)

theorem encode_bodyText (body : Bytes) :
  Utf8.encode (bodyText body) = Base64.encode body
  :=
  encode_asciiText (isBase64_encode body)

/-- The text of a body is spelled as it is. -/
theorem literalText_bodyText (body : Bytes) :
  literalText (spelled (bodyText body)) = quote :: (Base64.encode body ++ [quote])
  := by
  have hbyte : ∀ b ∈ Base64.encode body, writeByte b = [b] := by
    intro b hb
    exact writeByte_of_isPlainByte (isBase64_encode body b hb).1
  rw [← writeString_eq, writeString, encode_bodyText, List.flatMap, List.map_congr_left hbyte,
    ← List.flatMap, List.flatMap_singleton', List.cons_append]

/-! ### The document -/

/-- A member without blanks. -/
def writtenMember (name : String) (v : Value) : Member Value :=
  ⟨⟨[], spelled name, []⟩, ⟨[], v, []⟩⟩

/-- An entry of the headers as a member. -/
def writtenEntry (e : String × String) : Member Value :=
  writtenMember e.1 (.string (spelled e.2))

/-- The document that is written for a body and entries of headers. -/
def written (body : Bytes) (es : List (String × String)) : ObjectDocument where
  before := []
  members := [writtenMember "body" (.string (spelled (bodyText body))),
    writtenMember "headers" (.object (es.map writtenEntry) [])]
  within := []
  after := []

theorem membersText_writtenMember (first : Bool) (name : String) (v : Value)
    (ms : List (Member Value)) :
  membersText first (writtenMember name v :: ms)
    = separator first ++ (writeString name ++ colon :: (v.text ++ membersText false ms))
  := by
  simp [writtenMember, membersText, writeString_eq, blanksText]

/-- Entries behind the first are written behind commas. -/
theorem membersText_writtenEntries (es : List (String × String)) :
  membersText false (es.map writtenEntry) = es.flatMap fun e => comma :: writeEntry e
  := by
  induction es with
  | nil => rfl
  | cons e es ih =>
    rw [List.map_cons, writtenEntry, membersText_writtenMember, ih, List.flatMap_cons, writeEntry,
      Value.text, ← writeString_eq]
    simp [separator]

theorem writeEntries_cons (e : String × String) (es : List (String × String)) :
  writeEntries (e :: es) = writeEntry e ++ es.flatMap fun e => comma :: writeEntry e
  := by
  rw [writeEntries, List.map_cons]
  induction es generalizing e with
  | nil => simp
  | cons e' es ih =>
    rw [List.map_cons, List.intercalate_cons_cons, ih, List.flatMap_cons]
    simp

/-- The entries of headers are members of an object. -/
theorem membersText_writtenEntries_first (es : List (String × String)) :
  membersText true (es.map writtenEntry) = writeEntries es
  := by
  cases es with
  | nil => rfl
  | cons e es =>
    rw [List.map_cons, writtenEntry, membersText_writtenMember, membersText_writtenEntries,
      writeEntries_cons, writeEntry, Value.text, ← writeString_eq]
    simp [separator]

/-- The document of a body and of headers is one of the grammar. -/
theorem written_text (body : Bytes) (es : List (String × String)) :
  (written body es).text = encodeWith body es
  := by
  have hbody : Utf8.encode "\x7b\"body\":\""
      = openObject :: (writeString "body" ++ [colon, quote]) := by
    decide
  have hheaders : Utf8.encode "\",\"headers\":\x7b"
      = quote :: comma :: (writeString "headers" ++ [colon, openObject]) := by
    decide
  rw [encodeWith, hbody, hheaders, written, ObjectDocument.text, Value.text,
    membersText_writtenMember, membersText_writtenMember, Value.text, literalText_bodyText,
    Value.text, membersText_writtenEntries_first]
  simp [separator, blanksText, membersText]

theorem membersData_writtenMember (name : String) (v : Value) (ms : List (Member Value)) :
  membersData (writtenMember name v :: ms) = (some name, v.datum) :: membersData ms
  := by
  rw [writtenMember, membersData, value?_spelled]

theorem datum_spelled (s : String) :
  (Value.string (spelled s)).datum = .text (some s)
  := by
  rw [Value.datum, value?_spelled]

theorem datum_writtenEntries (es : List (String × String)) (within : List Blank) :
  (Value.object (es.map writtenEntry) within).datum = .object (entriesData es)
  := by
  rw [Value.datum]
  apply congrArg
  induction es with
  | nil => rfl
  | cons e es ih =>
    rw [List.map_cons, writtenEntry, membersData_writtenMember, ih, datum_spelled]
    rfl

/-- What is written says the body and the entries. -/
theorem written_data (body : Bytes) (es : List (String × String)) :
  (written body es).data
    = [(some "body", .text (some (bodyText body))), (some "headers", .object (entriesData es))]
  := by
  rw [written, ObjectDocument.data, membersData_writtenMember, membersData_writtenMember,
    datum_spelled, datum_writtenEntries]
  rfl

end StreamCall.Envelope
