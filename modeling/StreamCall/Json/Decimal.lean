/-!
# Shortest decimals

The text of a binary floating point number with the fewest digits that still read back as
that number; of two such texts, the one nearer to it.  `Binary` is the exact value,
`Binary.shortest` the digits, and `shortestText` the text that messages show.
-/

namespace StreamCall.Json

/-- The value `mantissa * 2 ^ exponent`; `narrow` tells that the next smaller number is only
half as far away as the next larger one. -/
structure Binary where
  mantissa : Nat
  exponent : Int
  narrow : Bool

namespace Binary

/-- The magnitude of a finite double with the given bits. -/
def ofBits (bits : UInt64) : Binary :=
  let field := (bits >>> 52).toNat % 2048
  let low := bits.toNat % Nat.pow 2 52
  if field = 0 then ⟨low, -1074, false⟩
  else ⟨Nat.pow 2 52 + low, (field : Int) - 1075, low = 0 && 1 < field⟩

/-- Four times the value over a common denominator, with the numbers between which
everything reads back as this value. -/
structure Range where
  low : Nat
  value : Nat
  high : Nat
  denominator : Nat
  closed : Bool

/-- The range of numbers that read back as a value: half way to its neighbours, the ends
included if the mantissa is even. -/
def range (b : Binary) : Range :=
  let up := Nat.pow 2 b.exponent.toNat
  let down := Nat.pow 2 (-b.exponent).toNat
  { low := (4 * b.mantissa - (if b.narrow then 1 else 2)) * up
    value := 4 * b.mantissa * up
    high := (4 * b.mantissa + 2) * up
    denominator := 4 * down
    closed := b.mantissa % 2 = 0 }

/-- Whether the decimal `digits * 10 ^ k` lies in a range. -/
def Range.holds (r : Range) (digits : Nat) (k : Int) : Bool :=
  let scaled := digits * Nat.pow 10 k.toNat * r.denominator
  let unit := Nat.pow 10 (-k).toNat
  if r.closed then r.low * unit ≤ scaled && scaled ≤ r.high * unit
  else r.low * unit < scaled && scaled < r.high * unit

/-- The multiples of `10 ^ k` next to the value, the nearer one first. -/
def Range.neighbours (r : Range) (k : Int) : List Nat :=
  let step := Nat.pow 10 k.toNat * r.denominator
  let scaled := r.value * Nat.pow 10 (-k).toNat
  let floor := scaled / step
  if 2 * (scaled % step) ≤ step then [floor, floor + 1] else [floor + 1, floor]

/-- The digits on the coarsest grid `10 ^ k` that has a number in the range, trying `n + 1`
grids from `k` downwards. -/
def Range.coarsest (r : Range) : Nat → Int → Nat × Int
  | 0, k => ((r.neighbours k).headD 0, k)
  | n + 1, k =>
    match (r.neighbours k).find? (r.holds · k) with
    | some d => (d, k)
    | none => r.coarsest n (k - 1)

/-- The shortest digits `d` and the power `k` with `d * 10 ^ k` reading back as the value. -/
def shortest (b : Binary) : Nat × Int :=
  b.range.coarsest 660 310

end Binary

/-- The text of `digits * 10 ^ k`: positional from `1e-5` up to below `1e16`, and always
with a fraction there; else with a signed exponent. -/
def decimalText (digits : Nat) (k : Int) : String :=
  let ds := Nat.toDigits 10 digits
  let top := k + ds.length - 1
  let text (cs : List Char) := String.ofList cs
  if 0 ≤ k ∧ top < 16 then text (ds ++ List.replicate k.toNat '0') ++ ".0"
  else if 0 ≤ top ∧ top < 16 then
    text (ds.take (top.toNat + 1)) ++ "." ++ text (ds.drop (top.toNat + 1))
  else if top < 0 ∧ -5 ≤ top then
    "0." ++ text (List.replicate (-top - 1).toNat '0' ++ ds)
  else
    let fraction := if ds.length = 1 then "" else "." ++ text ds.tail
    let sign := if top < 0 then "-" else "+"
    text (ds.take 1) ++ fraction ++ "e" ++ sign ++ toString top.natAbs

/-- The shortest text of a finite number. -/
def shortestText (f : Float) : String :=
  let bits := f.toBits
  let sign := if bits < 0x8000000000000000 then "" else "-"
  let magnitude := bits % 0x8000000000000000
  if magnitude = 0 then sign ++ "0.0"
  else
    let (digits, k) := (Binary.ofBits magnitude).shortest
    sign ++ decimalText digits k

end StreamCall.Json
