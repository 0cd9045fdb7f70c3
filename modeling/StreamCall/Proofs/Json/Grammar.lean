import StreamCall.Json.Scan

/-!
# The grammar of documents

What a JSON document looks like, written down as trees: a `Value` records how it is spelled,
down to the blanks between its pieces and the escapes in its strings, and `Value.text` is the
text that is spelled so.  The texts of trees are all JSON texts.

`Value.datum` forgets the spelling.  A string that spells no Unicode text, because of a lone
half of a surrogate pair, has the datum `none`.
-/

namespace StreamCall.Json.Grammar

/-! ### Blanks -/

/-- A blank. -/
inductive Blank where
  | space
  | tab
  | lineFeed
  | carriageReturn
deriving DecidableEq, Repr

/-- The byte of a blank. -/
def Blank.byte : Blank → UInt8
  | .space => 0x20
  | .tab => 0x09
  | .lineFeed => 0x0A
  | .carriageReturn => 0x0D

/-- The text of blanks. -/
def blanksText (blanks : List Blank) : Bytes :=
  blanks.map Blank.byte

/-! ### Strings -/

/-- A character that may stand for itself. -/
structure PlainChar where
  char : Char
  isPlain : 0x20 ≤ char.toNat ∧ char ≠ '"' ∧ char ≠ '\\'
deriving DecidableEq

/-- What may follow a backslash, apart from a code unit. -/
inductive Escape where
  | quote
  | backslash
  | slash
  | backspace
  | formFeed
  | lineFeed
  | carriageReturn
  | tab
deriving DecidableEq, Repr

/-- The letter of an escape. -/
def Escape.letter : Escape → UInt8
  | .quote => 0x22
  | .backslash => 0x5C
  | .slash => 0x2F
  | .backspace => 0x62
  | .formFeed => 0x66
  | .lineFeed => 0x6E
  | .carriageReturn => 0x72
  | .tab => 0x74

/-- The character that an escape stands for. -/
def Escape.char : Escape → Char
  | .quote => '"'
  | .backslash => '\\'
  | .slash => '/'
  | .backspace => '\x08'
  | .formFeed => '\x0c'
  | .lineFeed => '\n'
  | .carriageReturn => '\r'
  | .tab => '\t'

/-- A hexadecimal digit; the letters among them come in both cases. -/
structure HexDigit where
  value : Fin 16
  isUpper : Bool
deriving DecidableEq, Repr

/-- The byte of a hexadecimal digit. -/
def HexDigit.byte (d : HexDigit) : UInt8 :=
  if d.value.val < 10 then UInt8.ofNat (48 + d.value.val)
  else if d.isUpper then UInt8.ofNat (55 + d.value.val)
  else UInt8.ofNat (87 + d.value.val)

/-- A code unit of sixteen bits. -/
structure CodeUnit where
  a : HexDigit
  b : HexDigit
  c : HexDigit
  d : HexDigit
deriving DecidableEq, Repr

/-- The number of a code unit. -/
def CodeUnit.value (u : CodeUnit) : Nat :=
  u.a.value.val * 4096 + u.b.value.val * 256 + u.c.value.val * 16 + u.d.value.val

/-- Whether a code unit is the first half of a surrogate pair. -/
def CodeUnit.IsHigh (u : CodeUnit) : Prop := 0xD800 ≤ u.value ∧ u.value ≤ 0xDBFF

/-- Whether a code unit is the second half of a surrogate pair. -/
def CodeUnit.IsLow (u : CodeUnit) : Prop := 0xDC00 ≤ u.value ∧ u.value ≤ 0xDFFF

instance (u : CodeUnit) : Decidable u.IsHigh :=
  inferInstanceAs (Decidable (0xD800 ≤ u.value ∧ u.value ≤ 0xDBFF))

instance (u : CodeUnit) : Decidable u.IsLow :=
  inferInstanceAs (Decidable (0xDC00 ≤ u.value ∧ u.value ≤ 0xDFFF))

/-- The character of a surrogate pair. -/
def pairChar (high low : CodeUnit) : Char :=
  Char.ofNat (0x10000 + (high.value - 0xD800) * 1024 + (low.value - 0xDC00))

/-- A piece of a string. -/
inductive Piece where
  | plain (c : PlainChar)
  | escape (e : Escape)
  | unit (u : CodeUnit)
deriving DecidableEq

/-- The text of a piece. -/
def Piece.text : Piece → Bytes
  | .plain c => String.utf8EncodeChar c.char
  | .escape e => [backslash, e.letter]
  | .unit u => [backslash, 0x75, u.a.byte, u.b.byte, u.c.byte, u.d.byte]

/-- A string, as it is spelled between its quotes. -/
abbrev Literal := List Piece

/-- The text of a string behind its opening quote, without the closing one. -/
def innerText (l : Literal) : Bytes :=
  l.flatMap Piece.text

/-- The text of a string. -/
def literalText (l : Literal) : Bytes :=
  quote :: (innerText l ++ [quote])

/-- The characters that a string spells, if it spells any. -/
def chars? : Literal → Option (List Char)
  | [] => some []
  | .plain c :: rest => (chars? rest).map (c.char :: ·)
  | .escape e :: rest => (chars? rest).map (e.char :: ·)
  | .unit u :: .unit v :: rest =>
    if u.IsHigh then
      if v.IsLow then (chars? rest).map (pairChar u v :: ·) else none
    else if u.IsLow then none
    else (chars? (.unit v :: rest)).map (Char.ofNat u.value :: ·)
  | .unit u :: rest =>
    if u.IsHigh ∨ u.IsLow then none else (chars? rest).map (Char.ofNat u.value :: ·)

/-- The text that a string spells, if it spells any. -/
def value? (l : Literal) : Option String :=
  (chars? l).map String.ofList

/-! ### Numbers -/

/-- The text of digits. -/
def digitsText (ds : List (Fin 10)) : Bytes :=
  ds.map fun d => UInt8.ofNat (48 + d.val)

/-- A whole number without sign; it has no leading zeros. -/
inductive Whole where
  | zero
  /-- The first digit is one more than `first`. -/
  | positive (first : Fin 9) (rest : List (Fin 10))
deriving DecidableEq, Repr

/-- The text of a whole number. -/
def Whole.text : Whole → Bytes
  | .zero => [0x30]
  | .positive first rest => UInt8.ofNat (49 + first.val) :: digitsText rest

/-- One digit or more. -/
structure Digits where
  first : Fin 10
  rest : List (Fin 10)
deriving DecidableEq, Repr

/-- The text of one digit or more. -/
def Digits.text (ds : Digits) : Bytes :=
  digitsText (ds.first :: ds.rest)

/-- The sign of an exponent. -/
inductive Sign where
  | none
  | plus
  | minus
deriving DecidableEq, Repr

/-- The text of a sign. -/
def Sign.text : Sign → Bytes
  | .none => []
  | .plus => [0x2B]
  | .minus => [0x2D]

/-- An exponent. -/
structure Exponent where
  isUpper : Bool
  sign : Sign
  digits : Digits
deriving DecidableEq, Repr

/-- The text of an exponent. -/
def Exponent.text (e : Exponent) : Bytes :=
  (if e.isUpper then 0x45 else 0x65) :: (e.sign.text ++ e.digits.text)

/-- A number. -/
structure Numeral where
  isNegative : Bool
  whole : Whole
  fraction : Option Digits
  exponent : Option Exponent
deriving DecidableEq, Repr

/-- The text of an exponent, if there is one. -/
def exponentText : Option Exponent → Bytes
  | none => []
  | some e => e.text

/-- The text of a fraction, if there is one. -/
def fractionText : Option Digits → Bytes
  | none => []
  | some ds => 0x2E :: ds.text

/-- The text of a number behind its sign. -/
def Numeral.magnitudeText (n : Numeral) : Bytes :=
  n.whole.text ++ (fractionText n.fraction ++ exponentText n.exponent)

/-- The text of a number. -/
def Numeral.text (n : Numeral) : Bytes :=
  (if n.isNegative then [0x2D] else []) ++ n.magnitudeText

/-! ### Values -/

/-- Something with blanks around it. -/
structure Padded (α : Type) where
  before : List Blank
  it : α
  after : List Blank

/-- A member of an object. -/
structure Member (α : Type) where
  name : Padded Literal
  value : Padded α

/-- A value. What stands last between brackets are blanks. -/
inductive Value where
  | null
  | boolean (b : Bool)
  | number (n : Numeral)
  | string (l : Literal)
  | list (items : List (Padded Value)) (within : List Blank)
  | object (members : List (Member Value)) (within : List Blank)

/-- What stands in front of a part of a list or an object. -/
def separator (first : Bool) : Bytes :=
  if first then [] else [comma]

mutual

/-- The text of a value. -/
def Value.text : Value → Bytes
  | .null => 0x6E :: ull
  | .boolean true => 0x74 :: rue
  | .boolean false => 0x66 :: alse
  | .number n => n.text
  | .string l => literalText l
  | .list items within =>
    openList :: (itemsText true items ++ (blanksText within ++ [closeList]))
  | .object members within =>
    openObject :: (membersText true members ++ (blanksText within ++ [closeObject]))

/-- The text of elements of a list; `first` tells that nothing of the list stands before
them. -/
def itemsText : Bool → List (Padded Value) → Bytes
  | _, [] => []
  | first, ⟨before, v, after⟩ :: items =>
    separator first ++ (blanksText before ++ (v.text ++ (blanksText after
      ++ itemsText false items)))

/-- The text of members of an object; `first` tells that nothing of the object stands before
them. -/
def membersText : Bool → List (Member Value) → Bytes
  | _, [] => []
  | first, ⟨⟨before, name, behind⟩, ⟨before', v, after⟩⟩ :: members =>
    separator first ++ (blanksText before ++ (literalText name ++ (blanksText behind
      ++ (colon :: (blanksText before' ++ (v.text ++ (blanksText after
        ++ membersText false members)))))))

end

/-! ### Data -/

/-- What a value says, however it is spelled. -/
inductive Datum where
  | null
  | boolean (b : Bool)
  | number (n : Numeral)
  | text (s : Option String)
  | list (items : List Datum)
  | object (members : List (Option String × Datum))

mutual

/-- What a value says. -/
def Value.datum : Value → Datum
  | .null => .null
  | .boolean b => .boolean b
  | .number n => .number n
  | .string l => .text (value? l)
  | .list items _ => .list (itemsData items)
  | .object members _ => .object (membersData members)

/-- What the elements of a list say. -/
def itemsData : List (Padded Value) → List Datum
  | [] => []
  | ⟨_, v, _⟩ :: items => v.datum :: itemsData items

/-- What the members of an object say. -/
def membersData : List (Member Value) → List (Option String × Datum)
  | [] => []
  | ⟨⟨_, name, _⟩, ⟨_, v, _⟩⟩ :: members => (value? name, v.datum) :: membersData members

end

/-- A document that is an object. -/
structure ObjectDocument where
  before : List Blank
  members : List (Member Value)
  within : List Blank
  after : List Blank

/-- The text of a document. -/
def ObjectDocument.text (d : ObjectDocument) : Bytes :=
  blanksText d.before ++ ((Value.object d.members d.within).text ++ blanksText d.after)

/-- What the members of a document say. -/
def ObjectDocument.data (d : ObjectDocument) : List (Option String × Datum) :=
  membersData d.members

end StreamCall.Json.Grammar
