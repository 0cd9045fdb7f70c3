import StreamCall.Json.Fault

/-!
# Pieces of a document

Blanks, fixed words, strings and numbers, each read from the front of the bytes that are
left of a document.  Strings come in two readings: `string` gives the text and checks it,
`skipString` only finds the end.
-/

namespace StreamCall.Json

/-! ### Punctuation -/

def quote : UInt8 := 0x22
def backslash : UInt8 := 0x5C
def comma : UInt8 := 0x2C
def colon : UInt8 := 0x3A
def openList : UInt8 := 0x5B
def closeList : UInt8 := 0x5D
def openObject : UInt8 := 0x7B
def closeObject : UInt8 := 0x7D

/-- The bytes that may stand between the pieces of a document. -/
def isSpace (b : UInt8) : Bool :=
  b = 0x20 || b = 0x0A || b = 0x09 || b = 0x0D

/-- The bytes of a document behind its leading blanks. -/
def skipSpace (rest : Bytes) : Bytes :=
  rest.dropWhile isSpace

/-- Reads a fixed word byte by byte. -/
def word : Bytes → Bytes → Except Fault Bytes
  | [], rest => .ok rest
  | _ :: _, [] => faultAt .eofInValue []
  | w :: ws, b :: rest => if b = w then word ws rest else faultAt .expectedIdent rest

/-- What follows the first letter of `null`. -/
def ull : Bytes := [0x75, 0x6C, 0x6C]

/-- What follows the first letter of `true`. -/
def rue : Bytes := [0x72, 0x75, 0x65]

/-- What follows the first letter of `false`. -/
def alse : Bytes := [0x61, 0x6C, 0x73, 0x65]

/-! ### Strings -/

/-- The value of a hexadecimal digit. -/
def hexValue? (b : UInt8) : Option Nat :=
  let n := b.toNat
  if 48 ≤ n ∧ n ≤ 57 then some (n - 48)
  else if 65 ≤ n ∧ n ≤ 70 then some (n - 55)
  else if 97 ≤ n ∧ n ≤ 102 then some (n - 87)
  else none

/-- The number that four hexadecimal digits spell. -/
def hexQuad? (a b c d : UInt8) : Option Nat := do
  return (← hexValue? a) * 4096 + (← hexValue? b) * 256 + (← hexValue? c) * 16
    + (← hexValue? d)

/-- Reads four hexadecimal digits. -/
def hexEscape : Bytes → Scan Nat
  | a :: b :: c :: d :: rest =>
    match hexQuad? a b c d with
    | some n => .ok (n, rest)
    | none => faultAt .invalidEscape rest
  | _ => faultAt .eofInString []

/-- The UTF-8 bytes of a code point, in reverse. -/
def codePointReversed (n : Nat) : Bytes :=
  if n < 0x80 then [UInt8.ofNat n]
  else if n < 0x800 then [UInt8.ofNat (0x80 + n % 64), UInt8.ofNat (0xC0 + n / 64)]
  else if n < 0x10000 then
    [UInt8.ofNat (0x80 + n % 64), UInt8.ofNat (0x80 + n / 64 % 64),
      UInt8.ofNat (0xE0 + n / 4096)]
  else
    [UInt8.ofNat (0x80 + n % 64), UInt8.ofNat (0x80 + n / 64 % 64),
      UInt8.ofNat (0x80 + n / 4096 % 64), UInt8.ofNat (0xF0 + n / 262144)]

/-- Reads the second half of a surrogate pair whose first half is `high`. -/
def lowSurrogate (high : Nat) : Bytes → Scan Nat
  | [] => faultAt .eofInString []
  | a :: rest =>
    if a = backslash then
      match rest with
      | [] => faultAt .eofInString []
      | b :: rest =>
        if b = 0x75 then
          match hexEscape rest with
          | .error f => .error f
          | .ok (low, rest) =>
            if 0xDC00 ≤ low ∧ low ≤ 0xDFFF then
              .ok (0x10000 + (high - 0xD800) * 1024 + (low - 0xDC00), rest)
            else faultAt .loneSurrogate rest
        else faultAt .unexpectedEscapeEnd rest
    else faultAt .unexpectedEscapeEnd rest

/-- Reads the code point that `\u` introduces; a pair of surrogates is one code point. -/
def unicodeEscape (rest : Bytes) : Scan Nat :=
  match hexEscape rest with
  | .error f => .error f
  | .ok (n, rest) =>
    if 0xDC00 ≤ n ∧ n ≤ 0xDFFF then faultAt .loneSurrogate rest
    else if 0xD800 ≤ n ∧ n ≤ 0xDBFF then lowSurrogate n rest
    else .ok (n, rest)

/-- The byte that a backslash and a letter other than `u` stand for. -/
def escapedByte? (b : UInt8) : Option UInt8 :=
  if b = quote ∨ b = backslash ∨ b = 0x2F then some b
  else if b = 0x62 then some 0x08
  else if b = 0x66 then some 0x0C
  else if b = 0x6E then some 0x0A
  else if b = 0x72 then some 0x0D
  else if b = 0x74 then some 0x09
  else none

/-- Reads what follows a backslash; the bytes it stands for come in reverse. -/
def escape : Bytes → Scan Bytes
  | [] => faultAt .eofInString []
  | b :: rest =>
    if b = 0x75 then
      match unicodeEscape rest with
      | .error f => .error f
      | .ok (n, rest) => .ok (codePointReversed n, rest)
    else
      match escapedByte? b with
      | some c => .ok ([c], rest)
      | none => faultAt .invalidEscape rest

/-- Reads a string up to and including its closing quote behind the bytes `out`, which are
in reverse. Every step takes at least one byte; the first argument, as long as the text,
bounds their number. -/
def stringBytes : Bytes → Bytes → Bytes → Scan Bytes
  | [], _, rest => faultAt .eofInString rest
  | _ :: _, _, [] => faultAt .eofInString []
  | _ :: bound, out, b :: rest =>
    if b = quote then .ok (out.reverse, rest)
    else if b = backslash then
      match escape rest with
      | .error f => .error f
      | .ok (bytes, rest) => stringBytes bound (bytes ++ out) rest
    else if b < 0x20 then faultAt .controlCharacter rest
    else stringBytes bound (b :: out) rest

/-- Reads a string behind its opening quote; its bytes have to be well-formed UTF-8. The fault
of others lies at their first ill-formed part: an escape stands for well-formed text, so this
is also the first ill-formed part of what is read. -/
def string (text : Bytes) : Scan String :=
  match stringBytes text [] text with
  | .error f => .error f
  | .ok (bytes, rest) =>
    match Utf8.decode? bytes with
    | some s => .ok (s, rest)
    | none => faultOn .invalidUnicode (text.drop (Utf8.soundLength text))

/-- Finds the end of what follows a backslash. -/
def skipEscape : Bytes → Except Fault Bytes
  | [] => faultAt .eofInString []
  | b :: rest =>
    if b = 0x75 then
      match hexEscape rest with
      | .error f => .error f
      | .ok (_, rest) => .ok rest
    else if (escapedByte? b).isSome then .ok rest
    else faultAt .invalidEscape rest

/-- Finds the end of a string behind its opening quote. Neither its UTF-8 nor its surrogates
are checked. The first argument, as long as the text, bounds the number of steps. -/
def skipStringFrom : Bytes → Bytes → Except Fault Bytes
  | [], rest => faultAt .eofInString rest
  | _ :: _, [] => faultAt .eofInString []
  | _ :: bound, b :: rest =>
    if b = quote then .ok rest
    else if b = backslash then
      match skipEscape rest with
      | .error f => .error f
      | .ok rest => skipStringFrom bound rest
    else if b < 0x20 then faultAt .controlCharacter (b :: rest)
    else skipStringFrom bound rest

/-- Finds the end of a string behind its opening quote. -/
def skipString (text : Bytes) : Except Fault Bytes :=
  skipStringFrom text text

/-! ### Numbers that are passed over -/

def isDigit (b : UInt8) : Bool :=
  0x30 ≤ b && b ≤ 0x39

/-- The bytes behind a run of digits. -/
def skipDigits (rest : Bytes) : Bytes :=
  rest.dropWhile isDigit

/-- Whether the next byte is one of those given. -/
def nextIs (p : UInt8 → Bool) (rest : Bytes) : Bool :=
  rest.head?.any p

def isExponentMark (b : UInt8) : Bool := b = 0x65 || b = 0x45
def isSign (b : UInt8) : Bool := b = 0x2B || b = 0x2D
def isPoint (b : UInt8) : Bool := b = 0x2E

/-- Passes over an exponent behind its mark. -/
def skipExponent (rest : Bytes) : Except Fault Bytes :=
  match if nextIs isSign rest then rest.tail else rest with
  | [] => faultAt .invalidNumber []
  | b :: rest => if isDigit b then .ok (skipDigits rest) else faultAt .invalidNumber rest

/-- Passes over an exponent, if there is one. -/
def skipOptionalExponent (rest : Bytes) : Except Fault Bytes :=
  if nextIs isExponentMark rest then skipExponent rest.tail else .ok rest

/-- Passes over the fraction and the exponent of a number, if there are any. -/
def skipFraction (rest : Bytes) : Except Fault Bytes :=
  if nextIs isPoint rest then
    if nextIs isDigit rest.tail then skipOptionalExponent (skipDigits rest.tail)
    else faultOn .invalidNumber rest.tail
  else skipOptionalExponent rest

/-- Passes over a number behind its sign. -/
def skipNumber : Bytes → Except Fault Bytes
  | [] => faultAt .invalidNumber []
  | b :: rest =>
    if b = 0x30 then
      if nextIs isDigit rest then faultOn .invalidNumber rest else skipFraction rest
    else if isDigit b then skipFraction (skipDigits rest)
    else faultAt .invalidNumber rest

end StreamCall.Json
