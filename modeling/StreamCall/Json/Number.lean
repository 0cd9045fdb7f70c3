import StreamCall.Json.Scan

/-!
# Numbers

`number` reads a number together with its value.  Whole numbers of up to 64 bits are exact;
all others become floating point numbers: their first digits, as many as fit 64 bits, are
scaled by a power of ten in floating point arithmetic, and a value beyond the largest
finite number is a fault.
-/

namespace StreamCall.Json

/-- The largest number of 64 bits. -/
def maxSignificand : Nat := Nat.pow 2 64 - 1

/-- The largest exponent that is read digit by digit. -/
def maxExponent : Nat := Nat.pow 2 31 - 1

/-- A power of ten that is a finite floating point number. -/
def powerOfTen (k : Nat) : Float :=
  Float.ofScientific 1 false k

/-- `f * 10 ^ exponent`, or nothing if that is beyond the largest finite number. The first
argument bounds the number of divisions by the largest power of ten. -/
def scaled : Nat → Float → Int → Option Float
  | fuel, f, exponent =>
    if exponent.natAbs ≤ 308 then
      if 0 ≤ exponent then
        let g := f * powerOfTen exponent.natAbs
        if g.isInf then none else some g
      else some (f / powerOfTen exponent.natAbs)
    else if f == 0.0 then some f
    else if 0 ≤ exponent then none
    else
      match fuel with
      | 0 => some f
      | fuel + 1 => scaled fuel (f / powerOfTen 308) (exponent + 308)

/-- The number of a sign, a significand and an exponent. -/
def ofParts (positive : Bool) (significand : Nat) (exponent : Int) (rest : Bytes) :
    Scan Number :=
  match scaled exponent.natAbs (UInt64.ofNat significand).toFloat exponent with
  | some f => .ok (.floating (if positive then f else -f), rest)
  | none => faultAt .numberOutOfRange rest

/-- Reads the digits of an exponent behind the first; past `maxExponent` the value is zero
or too large whatever digits follow. -/
def exponentDigits (positive : Bool) (significand : Nat) (start : Int)
    (positiveExponent : Bool) : Nat → Bytes → Scan Number
  | e, b :: rest =>
    if isDigit b then
      let e' := e * 10 + (b.toNat - 48)
      if maxExponent < e' then
        if significand ≠ 0 ∧ positiveExponent then faultAt .numberOutOfRange rest
        else .ok (.floating (if positive then 0.0 else -0.0), skipDigits rest)
      else exponentDigits positive significand start positiveExponent e' rest
    else
      ofParts positive significand (if positiveExponent then start + e else start - e)
        (b :: rest)
  | e, [] =>
    ofParts positive significand (if positiveExponent then start + e else start - e) []

/-- Reads an exponent behind its mark. -/
def exponent (positive : Bool) (significand : Nat) (start : Int) (rest : Bytes) :
    Scan Number :=
  let positiveExponent := !nextIs (· = 0x2D) rest
  match if nextIs isSign rest then rest.tail else rest with
  | [] => faultAt .eofInValue []
  | b :: rest =>
    if isDigit b then
      exponentDigits positive significand start positiveExponent (b.toNat - 48) rest
    else faultAt .invalidNumber rest

/-- Reads an exponent if there is one, and makes up the number. -/
def optionalExponent (positive : Bool) (significand : Nat) (start : Int) (rest : Bytes) :
    Scan Number :=
  if nextIs isExponentMark rest then exponent positive significand start rest.tail
  else ofParts positive significand start rest

/-- Reads the digits of a fraction; those that do not fit the significand are dropped. -/
def fractionDigits (positive : Bool) : Nat → Int → Bytes → Scan Number
  | significand, start, b :: rest =>
    if isDigit b then
      let s := significand * 10 + (b.toNat - 48)
      if maxSignificand < s then
        optionalExponent positive significand start (skipDigits (b :: rest))
      else fractionDigits positive s (start - 1) rest
    else optionalExponent positive significand start (b :: rest)
  | significand, start, [] => optionalExponent positive significand start []

/-- Reads a fraction behind its point; it has at least one digit. -/
def fraction (positive : Bool) (significand : Nat) (start : Int) (rest : Bytes) :
    Scan Number :=
  match rest with
  | [] => faultOn .eofInValue []
  | b :: _ =>
    if isDigit b then fractionDigits positive significand start rest
    else faultOn .invalidNumber rest

/-- Reads the digits of a whole number that do not fit its significand; each counts as a
power of ten. -/
def longDigits (positive : Bool) (significand : Nat) : Int → Bytes → Scan Number
  | e, b :: rest =>
    if isDigit b then longDigits positive significand (e + 1) rest
    else if isPoint b then fraction positive significand e rest
    else optionalExponent positive significand e (b :: rest)
  | e, [] => ofParts positive significand e []

/-- What a significand without fraction and exponent stands for. -/
def wholeNumber (positive : Bool) (significand : Nat) : Number :=
  if positive then .natural significand
  else if significand = 0 ∨ Nat.pow 2 63 < significand then
    .floating (-(UInt64.ofNat significand).toFloat)
  else .negative (-significand)

/-- Makes up a number from its significand and what follows. -/
def afterDigits (positive : Bool) (significand : Nat) (rest : Bytes) : Scan Number :=
  if nextIs isPoint rest then fraction positive significand 0 rest.tail
  else if nextIs isExponentMark rest then exponent positive significand 0 rest.tail
  else .ok (wholeNumber positive significand, rest)

/-- Reads the digits of a whole number. -/
def wholeDigits (positive : Bool) : Nat → Bytes → Scan Number
  | significand, b :: rest =>
    if isDigit b then
      let s := significand * 10 + (b.toNat - 48)
      if maxSignificand < s then longDigits positive significand 0 (b :: rest)
      else wholeDigits positive s rest
    else afterDigits positive significand (b :: rest)
  | significand, [] => afterDigits positive significand []

/-- Reads a number behind its sign. -/
def number (positive : Bool) : Bytes → Scan Number
  | [] => faultAt .eofInValue []
  | b :: rest =>
    if b = 0x30 then
      if nextIs isDigit rest then faultOn .invalidNumber rest
      else afterDigits positive 0 rest
    else if isDigit b then wholeDigits positive (b.toNat - 48) rest
    else faultAt .invalidNumber rest

end StreamCall.Json
