/-!
# Durations

A span of time is a number of nanoseconds.  Its text uses the largest of the units
`s`, `ms`, `µs` and `ns` that it reaches and writes the fraction without trailing zeros.
-/

namespace StreamCall

/-- A span of time. -/
structure Duration where
  nanos : Nat
deriving DecidableEq, Repr, Inhabited

namespace Duration

/-- A span of whole seconds and further nanoseconds. -/
def ofSecs (secs : Nat) (nanos : Nat) : Duration :=
  ⟨secs * 1000000000 + nanos⟩

/-- A span of whole milliseconds. -/
def ofMillis (n : Nat) : Duration :=
  ⟨n * 1000000⟩

/-- The whole milliseconds of a span. -/
def millis (d : Duration) : Nat :=
  d.nanos / 1000000

/-- The milliseconds a clock with millisecond ticks waits for a span: a started tick is
waited for in full. -/
def ticks (d : Duration) : Nat :=
  (d.nanos + 999999) / 1000000

/-- The decimals of `n` parts of `unit`, a power of ten, without trailing zeros. -/
def fraction (n unit : Nat) : String :=
  let digits := (Nat.toDigits 10 (unit + n)).tail
  let kept := (digits.reverse.dropWhile (· = '0')).reverse
  if kept.isEmpty then "" else "." ++ String.ofList kept

/-- The text of a span counted in a unit of `unit` nanoseconds. -/
def inUnit (n unit : Nat) (name : String) : String :=
  toString (n / unit) ++ fraction (n % unit) unit ++ name

/-- The text of a span, as in `1.5s`, `49ms`, `1.001µs` and `0ns`. -/
def text (d : Duration) : String :=
  let n := d.nanos
  if 1000000000 ≤ n then inUnit n 1000000000 "s"
  else if 1000000 ≤ n then inUnit n 1000000 "ms"
  else if 1000 ≤ n then inUnit n 1000 "µs"
  else toString n ++ "ns"

end Duration

end StreamCall
