/-!
# Bytes and UTF-8 text

Wire data is a list of bytes.  `encode` writes a text as UTF-8, `decode?` reads it back
and refuses ill-formed bytes, and `lossy` reads any bytes, putting one replacement
character in the place of each maximal ill-formed part.
-/

namespace StreamCall

/-- A piece of wire data. -/
abbrev Bytes := List UInt8

namespace Utf8

/-- The UTF-8 bytes of a text. -/
def encode (s : String) : Bytes :=
  s.toUTF8.data.toList

/-- The text that well-formed UTF-8 bytes spell. -/
def decode? (b : Bytes) : Option String :=
  String.fromUTF8? ⟨b.toArray⟩

/-- Well-formed text is read back from its bytes. -/
theorem decode?_encode (s : String) :
  decode? (encode s) = some s
  := by
  simp only [decode?, encode, Array.toArray_toList, String.fromUTF8?,
    String.toUTF8_eq_toByteArray, dif_pos s.isValidUTF8]
  rfl

/-! ### Reading any bytes -/

/-- The character that stands for ill-formed bytes. -/
def replacement : Char := '\uFFFD'

/-- An unfinished sequence: the bits read so far, how many bytes are missing, and the
range the next byte has to lie in. -/
structure Unfinished where
  bits : Nat
  missing : Nat
  low : UInt8
  high : UInt8

/-- Reads the first byte of a character; characters are collected in reverse. -/
def begin (out : List Char) (b : UInt8) : List Char × Option Unfinished :=
  let n := b.toNat
  if b < 0x80 then (Char.ofNat n :: out, none)
  else if b < 0xC2 then (replacement :: out, none)
  else if b < 0xE0 then (out, some ⟨n - 0xC0, 1, 0x80, 0xBF⟩)
  else if b = 0xE0 then (out, some ⟨0, 2, 0xA0, 0xBF⟩)
  else if b = 0xED then (out, some ⟨0xD, 2, 0x80, 0x9F⟩)
  else if b < 0xF0 then (out, some ⟨n - 0xE0, 2, 0x80, 0xBF⟩)
  else if b = 0xF0 then (out, some ⟨0, 3, 0x90, 0xBF⟩)
  else if b < 0xF4 then (out, some ⟨n - 0xF0, 3, 0x80, 0xBF⟩)
  else if b = 0xF4 then (out, some ⟨4, 3, 0x80, 0x8F⟩)
  else (replacement :: out, none)

/-- Reads one more byte. A byte that cannot continue the sequence ends it as ill-formed
and begins a character itself. -/
def feed (state : List Char × Option Unfinished) (b : UInt8) :
    List Char × Option Unfinished :=
  match state with
  | (out, none) => begin out b
  | (out, some p) =>
    if p.low ≤ b ∧ b ≤ p.high then
      let bits := p.bits * 64 + (b.toNat - 0x80)
      if p.missing ≤ 1 then (Char.ofNat bits :: out, none)
      else (out, some ⟨bits, p.missing - 1, 0x80, 0xBF⟩)
    else
      begin (replacement :: out) b

/-- The text of any bytes. -/
def lossy (b : Bytes) : String :=
  match b.foldl feed ([], none) with
  | (out, none) => String.ofList out.reverse
  | (out, some _) => String.ofList (replacement :: out).reverse

/-- How many bytes stand before the first ill-formed part. The character that is being read
began at offset `start`, and the next byte lies at offset `i`. -/
def soundLengthFrom (start i : Nat) : Option Unfinished → Bytes → Nat
  | _, [] => start
  | none, b :: rest =>
    if b < 0x80 then soundLengthFrom (i + 1) (i + 1) none rest
    else
      match begin [] b with
      | (_, some p) => soundLengthFrom i (i + 1) (some p) rest
      | (_, none) => i
  | some p, b :: rest =>
    if p.low ≤ b ∧ b ≤ p.high then
      if p.missing ≤ 1 then soundLengthFrom (i + 1) (i + 1) none rest
      else soundLengthFrom start (i + 1) (some ⟨0, p.missing - 1, 0x80, 0xBF⟩) rest
    else start

/-- How many bytes stand before the first ill-formed part. -/
def soundLength (b : Bytes) : Nat :=
  soundLengthFrom 0 0 none b

end Utf8

end StreamCall
