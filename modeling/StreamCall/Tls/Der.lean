import StreamCall.Text.Utf8

/-!
# DER values

A DER value is a tag, a length and as many bytes.  The readers here take a value of a wanted
tag off the front of a byte string.  Lengths have to be as short as they can be.
-/

namespace StreamCall.Tls.Der

def integer : UInt8 := 0x02
def bitString : UInt8 := 0x03
def octetString : UInt8 := 0x04
def sequence : UInt8 := 0x30

/-- The tag of the member of that number of a structure. -/
def member (n : Nat) : UInt8 := UInt8.ofNat (0xA0 + n)

/-- Reads a length of at most two bytes. -/
def length : Bytes → Option (Nat × Bytes)
  | [] => none
  | a :: rest =>
    if a < 0x80 then some (a.toNat, rest)
    else if a = 0x81 then
      match rest with
      | b :: rest => if 0x80 ≤ b then some (b.toNat, rest) else none
      | _ => none
    else if a = 0x82 then
      match rest with
      | b :: c :: rest =>
        let n := b.toNat * 256 + c.toNat
        if 256 ≤ n then some (n, rest) else none
      | _ => none
    else none

/-- Reads a value with a tag. -/
def value (tag : UInt8) : Bytes → Option (Bytes × Bytes)
  | [] => none
  | t :: rest =>
    if t = tag then
      match length rest with
      | none => none
      | some (n, rest) => if rest.length < n then none else some (rest.take n, rest.drop n)
    else none

/-- Reads a value with a tag that is all of a byte string. -/
def only (tag : UInt8) (b : Bytes) : Option Bytes :=
  match value tag b with
  | some (v, []) => some v
  | _ => none

/-- Reads a value with a tag if one comes next. -/
def optional (tag : UInt8) (b : Bytes) : Option (Option Bytes × Bytes) :=
  if b.head? = some tag then (value tag b).map fun (v, rest) => (some v, rest)
  else some (none, b)

/-- Reads a number of one byte. -/
def smallNumber (b : Bytes) : Option (Nat × Bytes) :=
  match value integer b with
  | some ([n], rest) => if n < 0x80 then some (n.toNat, rest) else none
  | _ => none

/-- The bits of a bit string of whole bytes. -/
def wholeBits : Bytes → Option Bytes
  | 0 :: bits => some bits
  | _ => none

end StreamCall.Tls.Der
