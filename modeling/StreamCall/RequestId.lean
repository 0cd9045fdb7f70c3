import StreamCall.Text.Blank
import StreamCall.Text.Utf8

/-!
# Request ids

The id that ties the calls of one request together.  It travels in a header; read from
there it loses the blanks around it, and a blank value is no id.  A fresh id is a random
UUID of version 4.
-/

namespace StreamCall

/-- An id of a request: a text that is not empty and has no blank at its ends. -/
structure RequestId where
  text : String
deriving DecidableEq, Inhabited, Repr

namespace RequestId

/-- The header an id travels in. -/
def header : String := "x-request-id"

/-- The id that a text holds, if it is not blank. -/
def parse (value : String) : Option RequestId :=
  let text := Text.trim value
  if text.isEmpty then none else some ⟨text⟩

/-- A byte as two hexadecimal digits. -/
def hexByte (n : Nat) : List Char :=
  [Nat.digitChar (n / 16 % 16), Nat.digitChar (n % 16)]

/-- The hexadecimal digits of bytes. -/
def hexBytes (bytes : List Nat) : String :=
  String.ofList (bytes.flatMap hexByte)

/-- The id made of sixteen random bytes: two of them carry the version and the variant. -/
def ofRandom (bytes : Bytes) : RequestId :=
  let bs := bytes.map UInt8.toNat
  let at' (i : Nat) := bs.getD i 0
  ⟨hexBytes [at' 0, at' 1, at' 2, at' 3] ++ "-" ++ hexBytes [at' 4, at' 5] ++ "-"
    ++ hexBytes [0x40 + at' 6 % 16, at' 7] ++ "-" ++ hexBytes [0x80 + at' 8 % 64, at' 9]
    ++ "-" ++ hexBytes [at' 10, at' 11, at' 12, at' 13, at' 14, at' 15]⟩

end RequestId

end StreamCall
