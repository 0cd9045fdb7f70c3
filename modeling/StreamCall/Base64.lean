import StreamCall.Text.Utf8

/-!
# Base64

The standard alphabet with padding.  `encode` writes four symbols for every three bytes
and pads the last group with `=`.  `decode` accepts exactly the texts that `encode`
writes: the padding has to be complete, and bits of the last symbol that stand for no
byte have to be zero.  A `Fault` says what is wrong with any other text, and where.
`decodeLoose` also accepts texts whose padding is missing.
-/

namespace StreamCall.Base64

/-- The byte that fills up the last group. -/
def pad : UInt8 := 0x3D

/-- The symbol of a value below 64. -/
def symbol (n : Nat) : UInt8 :=
  if n < 26 then UInt8.ofNat (n + 65)
  else if n < 52 then UInt8.ofNat (n + 71)
  else if n < 62 then UInt8.ofNat (n - 4)
  else if n = 62 then 0x2B
  else 0x2F

/-- The value of a symbol. -/
def value? (b : UInt8) : Option Nat :=
  let n := b.toNat
  if 65 ≤ n ∧ n ≤ 90 then some (n - 65)
  else if 97 ≤ n ∧ n ≤ 122 then some (n - 71)
  else if 48 ≤ n ∧ n ≤ 57 then some (n + 4)
  else if n = 43 then some 62
  else if n = 47 then some 63
  else none

/-! ### Writing -/

/-- Writes the groups of a byte string behind the symbols `out`, which are in reverse. -/
def encodeOnto (out : Bytes) : Bytes → Bytes
  | a :: b :: c :: rest =>
    let (x, y, z) := (a.toNat, b.toNat, c.toNat)
    encodeOnto
      (symbol (z % 64) :: symbol (y % 16 * 4 + z / 64) :: symbol (x % 4 * 16 + y / 16)
        :: symbol (x / 4) :: out)
      rest
  | [a, b] =>
    let (x, y) := (a.toNat, b.toNat)
    (pad :: symbol (y % 16 * 4) :: symbol (x % 4 * 16 + y / 16) :: symbol (x / 4)
      :: out).reverse
  | [a] =>
    let x := a.toNat
    (pad :: pad :: symbol (x % 4 * 16) :: symbol (x / 4) :: out).reverse
  | [] => out.reverse

/-- The padded text of a byte string. -/
def encode (b : Bytes) : Bytes :=
  encodeOnto [] b

/-! ### Reading -/

/-- Why a text is not the text of a byte string. -/
inductive Fault where
  /-- A byte that is no symbol, or padding where a symbol belongs. -/
  | symbol (offset : Nat) (byte : UInt8)
  /-- A lone symbol in the last group. -/
  | length (n : Nat)
  /-- The last group is not filled up. -/
  | padding
  /-- The last symbol has bits that stand for no byte. -/
  | lastSymbol (offset : Nat) (byte : UInt8)
deriving DecidableEq, Repr

/-- The text of a fault. -/
def Fault.message : Fault → String
  | .symbol offset byte => s!"Invalid symbol {byte.toNat}, offset {offset}."
  | .length n => s!"Invalid input length: {n}"
  | .padding => "Invalid padding"
  | .lastSymbol offset byte => s!"Invalid last symbol {byte.toNat}, offset {offset}."

/-- The value of the symbol at an offset. -/
def valueAt (offset : Nat) (b : UInt8) : Except Fault Nat :=
  match value? b with
  | some v => .ok v
  | none => .error (.symbol offset b)

/-- What has been read of the last group: the number of symbols and their joint value,
the last of them, the number of pads and the offset of the first. -/
structure Tail where
  symbols : Nat
  bits : Nat
  last : UInt8
  pads : Nat
  firstPad : Nat

/-- Reads the last group, whose first byte lies at offset `start`; the next byte is its
`i`-th. A pad may stand only behind two symbols of a group of four, and a symbol behind no
pad. -/
def readTail (start : Nat) : Nat → Tail → Bytes → Except Fault Tail
  | _, t, [] => .ok t
  | i, t, b :: rest =>
    if b = pad then
      if i % 4 < 2 then
        .error (.symbol (if t.pads = 0 then start + i else t.firstPad) b)
      else if t.pads = 0 then
        readTail start (i + 1) { t with pads := 1, firstPad := start + i } rest
      else
        readTail start (i + 1) { t with pads := t.pads + 1 } rest
    else if t.pads ≠ 0 then
      .error (.symbol t.firstPad pad)
    else
      match valueAt (start + i) b with
      | .error f => .error f
      | .ok v =>
        readTail start (i + 1)
          { t with symbols := t.symbols + 1, bits := t.bits * 64 + v, last := b } rest

/-- Nothing read yet. -/
def Tail.empty : Tail := ⟨0, 0, 0, 0, 0⟩

/-- The `n` bytes of a number, the highest first. -/
def bigEndian : Nat → Nat → Bytes
  | 0, _ => []
  | n + 1, v => bigEndian n (v / 256) ++ [UInt8.ofNat v]

/-- The bytes of the last group. -/
def Tail.bytes (start : Nat) (t : Tail) : Except Fault Bytes :=
  let spare := t.symbols * 6 % 8
  if t.bits % Nat.pow 2 spare ≠ 0 then .error (.lastSymbol (start + t.symbols - 1) t.last)
  else .ok (bigEndian (t.symbols * 6 / 8) (t.bits / Nat.pow 2 spare))

/-- The bytes of the last group, which starts at offset `start`. -/
def decodeTail (start : Nat) (text : Bytes) : Except Fault Bytes :=
  match readTail start 0 .empty text with
  | .error f => .error f
  | .ok t =>
    if text ≠ [] ∧ t.symbols < 2 then .error (.length (start + t.symbols))
    else if (t.pads + t.symbols) % 4 ≠ 0 then .error .padding
    else t.bytes start

/-- The three bytes of four symbols, the first of them at offset `start`. -/
def decodeQuad (start : Nat) (a b c d : UInt8) : Except Fault (UInt8 × UInt8 × UInt8) := do
  let x ← valueAt start a
  let y ← valueAt (start + 1) b
  let z ← valueAt (start + 2) c
  let w ← valueAt (start + 3) d
  return (UInt8.ofNat (x * 4 + y / 16), UInt8.ofNat (y % 16 * 16 + z / 4),
    UInt8.ofNat (z % 4 * 64 + w))

/-- Reads the groups from offset `start` on behind the bytes `out`, which are in reverse;
only the last group may hold padding. -/
def decodeOnto (start : Nat) (out : Bytes) : Bytes → Except Fault Bytes
  | a :: b :: c :: d :: e :: rest =>
    match decodeQuad start a b c d with
    | .error f => .error f
    | .ok (x, y, z) => decodeOnto (start + 4) (z :: y :: x :: out) (e :: rest)
  | text =>
    match decodeTail start text with
    | .error f => .error f
    | .ok bytes => .ok (out.reverse ++ bytes)

/-- The lone last byte of a text, if it is neither a symbol nor a pad: such a byte is
reported before anything else. -/
def strayByte? (text : Bytes) : Option UInt8 :=
  if text.length % 4 = 1 then
    text.getLast?.filter fun b => b ≠ pad && (value? b).isNone
  else none

/-- The byte string of a padded text. -/
def decode (text : Bytes) : Except Fault Bytes :=
  match strayByte? text with
  | some b => .error (.symbol (text.length - 1) b)
  | none => decodeOnto 0 [] text

/-! ### Texts whose padding may be missing -/

/-- The bytes of whole groups without padding, behind the bytes `out`, which are in reverse. -/
def decodeQuads (start : Nat) (out : Bytes) : Bytes → Except Fault Bytes
  | a :: b :: c :: d :: rest =>
    match decodeQuad start a b c d with
    | .error f => .error f
    | .ok (x, y, z) => decodeQuads (start + 4) (z :: y :: x :: out) rest
  | _ => .ok out.reverse

/-- The byte string of a text that need not be padded. The length is looked at first, and only
the last two groups may hold padding. -/
def decodeLoose (text : Bytes) : Except Fault Bytes :=
  let n := text.length
  match strayByte? text with
  | some b => .error (.symbol (n - 1) b)
  | none =>
    if n % 4 = 1 then .error (.length n)
    else
      let start := n - (if n % 8 = 0 then min n 8 else n % 8)
      match decodeQuads 0 [] (text.take start), readTail start 0 .empty (text.drop start) with
      | .error f, _ => .error f
      | _, .error f => .error f
      | .ok front, .ok t => (t.bytes start).map (front ++ ·)

end StreamCall.Base64
