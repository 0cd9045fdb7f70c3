import StreamCall.Text.Utf8

/-!
# The curve P-256

Points of the curve `y² = x³ - 3 x + b` over a prime field, with the group law.  A private key
is a number, and `publicKey` is the written form of that multiple of the base point.
-/

namespace StreamCall.Tls.Curve

/-- The order of the field. -/
def prime : Nat := 0xffffffff00000001000000000000000000000000ffffffffffffffffffffffff

/-- The order of the base point. -/
def order : Nat := 0xffffffff00000000ffffffffffffffffbce6faada7179e84f3b9cac2fc632551

/-- A point of the curve. -/
inductive Point where
  | infinity
  | affine (x y : Nat)
deriving DecidableEq, Repr

/-- The base point. -/
def base : Point :=
  .affine 0x6b17d1f2e12c4247f8bce6e563a440f277037d812deb33a0f4a13945d898c296
    0x4fe342e2fe1a7f9b8ee7eb4a7c0f9e162bce33576b315ececbb6406837bf51f5

/-- The difference of two numbers in the field. -/
def sub (a b : Nat) : Nat := (a + (prime - b % prime)) % prime

/-- A power in the field; the first argument bounds the bits of the exponent. -/
def pow : Nat → Nat → Nat → Nat
  | 0, _, _ => 1
  | n + 1, a, e =>
    let half := pow n (a * a % prime) (e / 2)
    if e % 2 = 1 then half * a % prime else half

/-- The inverse of a number in the field. -/
def inverse (a : Nat) : Nat := pow 256 a (prime - 2)

/-- The third point of the line of a slope through a point and another with abscissa `x'`,
reflected. -/
def third (slope x y x' : Nat) : Point :=
  let x'' := sub (sub (slope * slope) x) x'
  .affine x'' (sub (slope * sub x x'') y)

/-- The sum of a point with itself. -/
def double : Point → Point
  | .infinity => .infinity
  | .affine x y =>
    if y = 0 then .infinity
    else third ((3 * (x * x) + (prime - 3)) % prime * inverse (2 * y % prime) % prime) x y x

/-- The sum of two points. -/
def add : Point → Point → Point
  | .infinity, q => q
  | p, .infinity => p
  | .affine x y, .affine x' y' =>
    if x = x' then if y = y' then double (.affine x y) else .infinity
    else third (sub y' y * inverse (sub x' x) % prime) x y x'

/-- A multiple of a point; the first argument bounds the bits of the number. -/
def multiple : Nat → Point → Nat → Point
  | 0, _, _ => .infinity
  | n + 1, p, k =>
    let rest := multiple n (double p) (k / 2)
    if k % 2 = 1 then add p rest else rest

/-- A number of the field in 32 bytes. -/
def fieldBytes (n : Nat) : Bytes :=
  (List.range 32).map fun i => UInt8.ofNat (n / Nat.pow 256 (31 - i))

/-- The written form of a point. -/
def Point.bytes : Point → Bytes
  | .infinity => [0]
  | .affine x y => 4 :: fieldBytes x ++ fieldBytes y

/-- The number that bytes spell. -/
def number (b : Bytes) : Nat := b.foldl (fun n x => n * 256 + x.toNat) 0

/-- The public key of a private key, if it is one. -/
def publicKey (privateKey : Bytes) : Option Bytes :=
  let k := number privateKey
  if privateKey.length = 32 ∧ 0 < k ∧ k < order then some (multiple 256 base k).bytes else none

end StreamCall.Tls.Curve
