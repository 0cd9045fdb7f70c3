import StreamCall.Json.Scan
import StreamCall.Json.Number
import StreamCall.Json.Skip
import StreamCall.Envelope.Message

/-!
# Envelope documents

An envelope travels as a compact JSON object with the member `body`, a base64 text, and the
member `headers`, an object of strings.  `encode` writes it; `decode` reads any document of
the format: blanks and escapes are free, either member may be missing or null, other
members are passed over, and a list of the two values stands for the object.
-/

namespace StreamCall.Envelope

open Json

/-! ### Writing -/

/-- A hexadecimal digit in lower case. -/
def hexDigit (n : Nat) : UInt8 :=
  if n < 10 then UInt8.ofNat (n + 48) else UInt8.ofNat (n + 87)

/-- One byte of a text as a string holds it. -/
def writeByte (b : UInt8) : Bytes :=
  if b = quote ∨ b = backslash then [backslash, b]
  else if b = 0x08 then [backslash, 0x62]
  else if b = 0x09 then [backslash, 0x74]
  else if b = 0x0A then [backslash, 0x6E]
  else if b = 0x0C then [backslash, 0x66]
  else if b = 0x0D then [backslash, 0x72]
  else if b < 0x20 then
    [backslash, 0x75, 0x30, 0x30, hexDigit (b.toNat / 16), hexDigit (b.toNat % 16)]
  else [b]

/-- A text as a string. -/
def writeString (s : String) : Bytes :=
  quote :: (Utf8.encode s).flatMap writeByte ++ [quote]

/-- A header as a member. -/
def writeEntry (e : String × String) : Bytes :=
  writeString e.1 ++ colon :: writeString e.2

/-- Headers as the members of an object. -/
def writeEntries (es : List (String × String)) : Bytes :=
  [comma].intercalate (es.map writeEntry)

/-- The document of a body and of headers in the given order. -/
def encodeWith (body : Bytes) (es : List (String × String)) : Bytes :=
  Utf8.encode "\x7b\"body\":\"" ++ Base64.encode body ++ Utf8.encode "\",\"headers\":\x7b"
    ++ writeEntries es ++ [closeObject, closeObject]

/-- The headers in the order in which they are written: their written forms ascend. -/
def writingOrder (h : Headers) : List (String × String) :=
  h.entries.mergeSort fun a b => writeEntry a ≤ writeEntry b

/-- The document of an envelope. -/
def encode (e : Envelope) : Bytes :=
  encodeWith e.body (writingOrder e.headers)

/-! ### Reading -/

/-- Which kind of message a document should hold. -/
inductive Side where
  | request
  | response
deriving DecidableEq, Repr

/-- What a document should be, as faults say it. -/
def Side.expected : Side → String
  | .request => "struct Request"
  | .response => "struct Response"

/-- The fault of a value that is not what was expected. The value is read as far as needed
to say what it is, and a fault in it comes first. -/
def unexpected {α : Type} (expected : String) (b : UInt8) (rest : Bytes) : Except Fault α :=
  let refuse (found : Found) (rest : Bytes) := faultAt (.invalidType found expected) rest
  if b = 0x6E then do let rest ← word ull rest; refuse .null rest
  else if b = 0x74 then do let rest ← word rue rest; refuse (.boolean true) rest
  else if b = 0x66 then do let rest ← word alse rest; refuse (.boolean false) rest
  else if b = 0x2D then do let (n, rest) ← number false rest; refuse (.number n) rest
  else if isDigit b then do let (n, rest) ← number true (b :: rest); refuse (.number n) rest
  else if b = quote then do let (s, rest) ← Json.string rest; refuse (.string s) rest
  else if b = openList then refuse .sequence (b :: rest)
  else if b = openObject then refuse .map (b :: rest)
  else faultOn .expectedValue (b :: rest)

/-- Reads a string, blanks before it included. -/
def readString (rest : Bytes) : Scan String :=
  match skipSpace rest with
  | [] => faultOn .eofInValue []
  | b :: rest => if b = quote then Json.string rest else unexpected "a string" b rest

/-- Reads a string or null. -/
def readOptionalString (rest : Bytes) : Scan (Option String) :=
  let rest := skipSpace rest
  if rest.head? = some 0x6E then
    match word ull rest.tail with
    | .error f => .error f
    | .ok rest => .ok (none, rest)
  else
    match readString rest with
    | .error f => .error f
    | .ok (s, rest) => .ok (some s, rest)

/-- Passes over the colon behind a member's name. -/
def readColon (rest : Bytes) : Except Fault Bytes :=
  match skipSpace rest with
  | [] => faultOn .eofInObject []
  | b :: rest => if b = colon then .ok rest else faultOn .expectedColon (b :: rest)

/-- Finds the next member of an object: what lies behind the opening quote of its name, or
nothing at the closing bracket, which is left in place. -/
def nextMember (first : Bool) (rest : Bytes) : Scan Bool :=
  match skipSpace rest with
  | [] => faultOn .eofInObject []
  | b :: rest =>
    if b = closeObject then .ok (false, b :: rest)
    else if b = comma ∧ !first then
      match skipSpace rest with
      | [] => faultOn .eofInValue []
      | c :: rest =>
        if c = quote then .ok (true, rest)
        else if c = closeObject then faultOn .trailingComma (c :: rest)
        else faultOn .keyNotString (c :: rest)
    else if first then
      if b = quote then .ok (true, rest) else faultOn .keyNotString (b :: rest)
    else faultOn .expectedObjectEnd (b :: rest)

/-- Finds the next element of a list: what lies before it, or nothing at the closing
bracket, which is left in place. -/
def nextElement (first : Bool) (rest : Bytes) : Scan Bool :=
  match skipSpace rest with
  | [] => faultOn .eofInList []
  | b :: rest =>
    if b = closeList then .ok (false, b :: rest)
    else if b = comma ∧ !first then
      match skipSpace rest with
      | [] => faultOn .eofInValue []
      | c :: rest =>
        if c = closeList then faultOn .trailingComma (c :: rest) else .ok (true, c :: rest)
    else if first then .ok (true, b :: rest)
    else faultOn .expectedListEnd (b :: rest)

/-- Passes over the closing bracket of an object. -/
def endObject (rest : Bytes) : Except Fault Bytes :=
  match skipSpace rest with
  | [] => faultOn .eofInObject []
  | b :: rest =>
    if b = closeObject then .ok rest
    else if b = comma then faultOn .trailingComma (b :: rest)
    else faultOn .trailingCharacters (b :: rest)

/-- Passes over the closing bracket of a list. -/
def endList (rest : Bytes) : Except Fault Bytes :=
  match skipSpace rest with
  | [] => faultOn .eofInList []
  | b :: rest =>
    if b = closeList then .ok rest
    else if b = comma then
      match skipSpace rest with
      | [] => faultOn .trailingCharacters []
      | c :: rest =>
        if c = closeList then faultOn .trailingComma (c :: rest)
        else faultOn .trailingCharacters (c :: rest)
    else faultOn .trailingCharacters (b :: rest)

/-- Reads the headers that are left of an object behind those already read. The first
argument bounds the number of steps. -/
def readEntries : Nat → Bool → Headers → Bytes → Scan Headers
  | 0, _, _, rest => faultOn .eofInObject rest
  | n + 1, first, acc, rest =>
    match nextMember first rest with
    | .error f => .error f
    | .ok (false, rest) => .ok (acc, rest)
    | .ok (true, rest) =>
      match Json.string rest with
      | .error f => .error f
      | .ok (name, rest) =>
        match readColon rest with
        | .error f => .error f
        | .ok rest =>
          match readString rest with
          | .error f => .error f
          | .ok (value, rest) => readEntries n false (acc.insert name value) rest

/-- Reads an object of strings, or null, which stands for no headers. -/
def readHeaders (rest : Bytes) : Scan Headers :=
  match skipSpace rest with
  | [] => faultOn .eofInValue []
  | b :: rest =>
    if b = 0x6E then
      match word ull rest with
      | .error f => .error f
      | .ok rest => .ok (.empty, rest)
    else if b = openObject then
      match readEntries (rest.length + 1) true .empty rest with
      | .error f => .error f
      | .ok (headers, rest) =>
        match endObject rest with
        | .error f => .error f
        | .ok rest => .ok (headers, rest)
    else unexpected "a map" b rest

/-- What follows the closing bracket of an object, if it comes next; a fault in the body or a
repeated member is reported there. -/
def behindObject (rest : Bytes) : Bytes :=
  match skipSpace rest with
  | [] => []
  | b :: rest => if b = closeObject then rest else b :: rest

/-- What follows the closing bracket of a list or a comma, if one comes next. -/
def behindList (rest : Bytes) : Bytes :=
  match skipSpace rest with
  | [] => []
  | b :: rest =>
    if b = closeList then rest else if b = comma then skipSpace rest else b :: rest

/-- Reads a base64 text, or null, which stands for no bytes. A fault in the text itself is
reported behind the enclosing bracket, which `behind` finds. -/
def readBody (behind : Bytes → Bytes) (rest : Bytes) : Scan Bytes :=
  match readOptionalString rest with
  | .error f => .error f
  | .ok (none, rest) => .ok ([], rest)
  | .ok (some text, rest) =>
    match Base64.decode (Utf8.encode text) with
    | .ok bytes => .ok (bytes, rest)
    | .error f => faultAt (.body f) (behind rest)

/-- The members of an envelope that have been read. -/
structure Members where
  body : Option Bytes
  headers : Option Headers

/-- Reads the members that are left of an envelope behind those already read. The first
argument bounds the number of steps. -/
def readMembers : Nat → Bool → Members → Bytes → Scan Members
  | 0, _, _, rest => faultOn .eofInObject rest
  | n + 1, first, acc, rest =>
    match nextMember first rest with
    | .error f => .error f
    | .ok (false, rest) => .ok (acc, rest)
    | .ok (true, rest) =>
      match Json.string rest with
      | .error f => .error f
      | .ok (name, rest) =>
        if name = "body" then
          if acc.body.isSome then
            faultAt (.duplicateField "body") (behindObject rest)
          else
            match readColon rest with
            | .error f => .error f
            | .ok rest =>
              match readBody behindObject rest with
              | .error f => .error f
              | .ok (body, rest) => readMembers n false { acc with body := some body } rest
        else if name = "headers" then
          if acc.headers.isSome then
            faultAt (.duplicateField "headers") (behindObject rest)
          else
            match readColon rest with
            | .error f => .error f
            | .ok rest =>
              match readHeaders rest with
              | .error f => .error f
              | .ok (headers, rest) =>
                readMembers n false { acc with headers := some headers } rest
        else
          match readColon rest with
          | .error f => .error f
          | .ok rest =>
            match skip rest with
            | .error f => .error f
            | .ok rest => readMembers n false acc rest

/-- Reads an envelope behind the opening bracket of an object. -/
def readObject (rest : Bytes) : Scan Envelope :=
  match readMembers (rest.length + 1) true ⟨none, none⟩ rest with
  | .error f => .error f
  | .ok (members, rest) =>
    match endObject rest with
    | .error f => .error f
    | .ok rest => .ok (⟨members.body.getD [], members.headers.getD .empty⟩, rest)

/-- Reads the headers of an envelope that is a list, behind its body, and its closing
bracket. -/
def readListHeaders (body : Bytes) (rest : Bytes) : Scan Envelope :=
  match nextElement false rest with
  | .error f => .error f
  | .ok (false, rest) => (endList rest).map ((⟨body, .empty⟩, ·))
  | .ok (true, rest) =>
    match readHeaders rest with
    | .error f => .error f
    | .ok (headers, rest) => (endList rest).map ((⟨body, headers⟩, ·))

/-- Reads an envelope behind the opening bracket of a list: the body, then the headers. -/
def readList (rest : Bytes) : Scan Envelope :=
  match nextElement true rest with
  | .error f => .error f
  | .ok (false, rest) => (endList rest).map ((⟨[], .empty⟩, ·))
  | .ok (true, rest) =>
    match readBody behindList rest with
    | .error f => .error f
    | .ok (body, rest) => readListHeaders body rest

/-- Reads an envelope from the front of a document. -/
def read (side : Side) (document : Bytes) : Scan Envelope :=
  match skipSpace document with
  | [] => faultOn .eofInValue []
  | b :: rest =>
    if b = openObject then readObject rest
    else if b = openList then readList rest
    else unexpected side.expected b rest

/-- The envelope that a whole document holds. -/
def decode (side : Side) (document : Bytes) : Except Json.Error Envelope :=
  match read side document with
  | .error f => .error (f.locate document)
  | .ok (e, rest) =>
    match skipSpace rest with
    | [] => .ok e
    | _ :: rest => .error (Fault.locate document ⟨.trailingCharacters, rest.length⟩)

end StreamCall.Envelope
