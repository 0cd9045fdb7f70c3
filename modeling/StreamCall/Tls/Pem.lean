import StreamCall.Base64
import StreamCall.Text.Quoted

/-!
# PEM texts

A PEM text holds labelled sections of base64 text between lines `-----BEGIN label-----` and
`-----END label-----`; other lines do not count.  `sections` reads all sections with a known
label; a fault in any section is a fault of the text.
-/

namespace StreamCall.Tls.Pem

/-- A section: its label and its contents. -/
structure Section where
  label : Bytes
  contents : Bytes
deriving DecidableEq, Repr

/-- What is wrong with a text. -/
inductive Fault where
  | missingEnd (marker : Bytes)
  | badStart (line : Bytes)
  | body (fault : Base64.Fault)
deriving DecidableEq, Repr

/-- The text of a fault of a section's base64 text. -/
def bodyMessage : Base64.Fault → String
  | .symbol offset byte => s!"Invalid byte {byte.toNat}, offset {offset}."
  | .length _ => "Encoded text cannot have a 6-bit remainder."
  | f => f.message

/-- The text of a fault. -/
def Fault.message : Fault → String
  | .missingEnd marker => "section end " ++ Text.quoted (Utf8.lossy marker) ++ " missing"
  | .badStart line => "illegal section start: " ++ Text.quoted (Utf8.lossy line)
  | .body fault => bodyMessage fault

def dash : UInt8 := 0x2D

/-- The bytes that end a line. -/
def isLineEnd (b : UInt8) : Bool := b = 0x0A || b = 0x0D

/-- The bytes that do not count at the end of a line. -/
def isFiller (b : UInt8) : Bool := isLineEnd b || b = 0x20

/-- The lines of a text, each with the byte that ends it; `line` is what has been read of the
first one, in reverse. -/
def linesFrom (line : Bytes) : Bytes → List Bytes
  | [] => if line.isEmpty then [] else [line.reverse]
  | b :: rest =>
    if isLineEnd b then (b :: line).reverse :: linesFrom [] rest else linesFrom (b :: line) rest

/-- The lines of a text. -/
def lines (text : Bytes) : List Bytes := linesFrom [] text

/-- What a line that begins a section begins with. -/
def beginMark : Bytes := Utf8.encode "-----BEGIN "

/-- What a line that ends a section begins with. -/
def endMark (label : Bytes) : Bytes :=
  Utf8.encode "-----END " ++ label ++ Utf8.encode "-----"

/-- The label of a line that begins a section: five dashes have to stand at its end, and
fillers among them do not count. -/
def label? (line : Bytes) : Option Bytes :=
  let back := (line.reverse.takeWhile fun b => b = dash || isFiller b).reverse
  let label := line.take (line.length - (back.dropWhile (· ≠ dash)).length)
  if back.count dash = 5 then some (label.drop beginMark.length) else none

/-- A line without the fillers at its end. -/
def trimmed (line : Bytes) : Bytes :=
  (line.reverse.dropWhile isFiller).reverse

/-- The labels that are known. -/
def knownLabels : List Bytes :=
  ["CERTIFICATE", "RSA PRIVATE KEY", "PRIVATE KEY", "EC PRIVATE KEY", "X509 CRL"].map
    Utf8.encode

/-- A section that has been begun: its label, and the base64 text read so far. A section that
begins inside another keeps what has been read. -/
structure Begun where
  label : Option Bytes
  body : Bytes

/-- Reads the sections of the lines that are left. -/
def sectionsFrom (begun : Begun) : List Bytes → Except Fault (List Section)
  | [] =>
    match begun.label with
    | some label => .error (.missingEnd (endMark label))
    | none => .ok []
  | line :: rest =>
    if beginMark.isPrefixOf line then
      match label? line with
      | none => .error (.badStart line)
      | some label => sectionsFrom { begun with label := some label } rest
    else
      match begun.label with
      | none => sectionsFrom begun rest
      | some label =>
        if (endMark label).isPrefixOf line then
          match Base64.decodeLoose begun.body with
          | .error f => .error (.body f)
          | .ok contents =>
            let found := if knownLabels.contains label then [⟨label, contents⟩] else []
            (sectionsFrom ⟨none, []⟩ rest).map (found ++ ·)
        else sectionsFrom { begun with body := begun.body ++ trimmed line } rest

/-- The sections of a text. -/
def sections (text : Bytes) : Except Fault (List Section) :=
  sectionsFrom ⟨none, []⟩ (lines text)

/-- The contents of the sections with a label. -/
def contentsOf (label : String) (text : Bytes) : Except Fault (List Bytes) :=
  (sections text).map fun found =>
    (found.filter (·.label = Utf8.encode label)).map (·.contents)

end StreamCall.Tls.Pem
