import StreamCall.Base64
import StreamCall.Text.Quoted
import StreamCall.Json.Decimal

/-!
# Faults of a document

What a reader of JSON documents can find wrong, and where.  A reader works on the bytes
that are left of a document, so a `Fault` records how many bytes lie behind its place; an
`Error` is a fault located in its document by line and column.
-/

namespace StreamCall.Json

/-- A number of a document: the readers tell whole numbers of up to 64 bits from all
others. -/
inductive Number where
  | natural (n : Nat)
  | negative (n : Int)
  | floating (f : Float)

/-- What a document holds in place of something else. -/
inductive Found where
  | null
  | boolean (b : Bool)
  | number (n : Number)
  | string (s : String)
  | sequence
  | map

/-- The text of what was found. -/
def Found.text : Found → String
  | .null => "null"
  | .boolean b => "boolean `" ++ toString b ++ "`"
  | .number (.natural n) => "integer `" ++ toString n ++ "`"
  | .number (.negative n) => "integer `" ++ toString n ++ "`"
  | .number (.floating f) => "floating point `" ++ shortestText f ++ "`"
  | .string s => "string " ++ Text.quoted s
  | .sequence => "sequence"
  | .map => "map"

/-- What is wrong with a document. -/
inductive Cause where
  | eofInList
  | eofInObject
  | eofInString
  | eofInValue
  | expectedColon
  | expectedListEnd
  | expectedObjectEnd
  | expectedIdent
  | expectedValue
  | invalidEscape
  | invalidNumber
  | numberOutOfRange
  | invalidUnicode
  | controlCharacter
  | keyNotString
  | loneSurrogate
  | unexpectedEscapeEnd
  | trailingComma
  | trailingCharacters
  | recursionLimit
  | invalidType (found : Found) (expected : String)
  | duplicateField (name : String)
  | body (fault : Base64.Fault)

/-- The text of a cause. -/
def Cause.message : Cause → String
  | .eofInList => "EOF while parsing a list"
  | .eofInObject => "EOF while parsing an object"
  | .eofInString => "EOF while parsing a string"
  | .eofInValue => "EOF while parsing a value"
  | .expectedColon => "expected `:`"
  | .expectedListEnd => "expected `,` or `]`"
  | .expectedObjectEnd => "expected `,` or `\x7d`"
  | .expectedIdent => "expected ident"
  | .expectedValue => "expected value"
  | .invalidEscape => "invalid escape"
  | .invalidNumber => "invalid number"
  | .numberOutOfRange => "number out of range"
  | .invalidUnicode => "invalid unicode code point"
  | .controlCharacter =>
    "control character (\\u0000-\\u001F) found while parsing a string"
  | .keyNotString => "key must be a string"
  | .loneSurrogate => "lone leading surrogate in hex escape"
  | .unexpectedEscapeEnd => "unexpected end of hex escape"
  | .trailingComma => "trailing comma"
  | .trailingCharacters => "trailing characters"
  | .recursionLimit => "recursion limit exceeded"
  | .invalidType found expected =>
    "invalid type: " ++ found.text ++ ", expected " ++ expected
  | .duplicateField name => "duplicate field `" ++ name ++ "`"
  | .body fault => fault.message

/-- A cause and the number of bytes that lie behind its place in the document. -/
structure Fault where
  cause : Cause
  left : Nat

/-- What a reader returns: a value and the bytes it leaves, or a fault. -/
abbrev Scan (α : Type) := Except Fault (α × Bytes)

/-- A fault just before the bytes `rest`. -/
def faultAt {α : Type} (cause : Cause) (rest : Bytes) : Except Fault α :=
  .error ⟨cause, rest.length⟩

/-- A fault at the first of the bytes `rest`, or at their end if there are none. -/
def faultOn {α : Type} (cause : Cause) (rest : Bytes) : Except Fault α :=
  .error ⟨cause, rest.length - 1⟩

/-- A fault located in its document. Lines count from one; the column is the number of bytes
of the line up to and including the place. -/
structure Error where
  cause : Cause
  line : Nat
  column : Nat

/-- Locates a fault in its document. -/
def Fault.locate (document : Bytes) (fault : Fault) : Error :=
  let before := document.take (document.length - fault.left)
  { cause := fault.cause
    line := before.count 0x0A + 1
    column := (before.reverse.takeWhile (· ≠ 0x0A)).length }

/-- The text of a located fault. -/
def Error.message (e : Error) : String :=
  e.cause.message ++ " at line " ++ toString e.line ++ " column " ++ toString e.column

end StreamCall.Json
