/-!
# Addresses

A literal address is the number of a host and a port, written `192.0.2.1:4433` or
`[2001:db8::1]:4433`.  `Address.resolve` reads the address a text stands for, and `Fault`
says why a text stands for none; names of hosts stand for none, as nothing here looks them
up.  `Address.serverName` is the part of a text in front of the port, without brackets.
-/

namespace StreamCall

/-- The number of a host. -/
inductive Host where
  | v4 (a b c d : Nat)
  /-- Eight groups of sixteen bits, and the scope they are valid in. -/
  | v6 (groups : List Nat) (scope : Nat)
deriving DecidableEq, Repr

/-- A host and a port. -/
structure Address where
  host : Host
  port : Nat
deriving DecidableEq, Repr

namespace Address

/-! ### Reading -/

/-- The value of a digit in a radix of at most 16. -/
def digit? (radix : Nat) (c : Char) : Option Nat :=
  let n := c.toNat
  let value :=
    if 48 ≤ n ∧ n ≤ 57 then n - 48
    else if 97 ≤ n ∧ n ≤ 102 then n - 87
    else if 65 ≤ n ∧ n ≤ 70 then n - 55
    else 16
  if value < radix then some value else none

/-- Reads a number of at most `limit` from as many digits as there are; more than `digits`
of them are too many. -/
def number (radix digits limit : Nat) (cs : List Char) : Option (Nat × List Char) :=
  let front := cs.takeWhile fun c => (digit? radix c).isSome
  let value := front.foldl (fun n c => n * radix + (digit? radix c).getD 0) 0
  if front.isEmpty ∨ digits < front.length ∨ limit < value then none
  else some (value, cs.drop front.length)

/-- Reads a number below 256 without leading zeros. -/
def octet (cs : List Char) : Option (Nat × List Char) :=
  match number 10 3 255 cs with
  | none => none
  | some (n, rest) =>
    if cs.head? = some '0' ∧ 1 < cs.length - rest.length then none else some (n, rest)

/-- Passes over a character. -/
def mark (c : Char) (cs : List Char) : Option (List Char) :=
  match cs with
  | [] => none
  | d :: rest => if d = c then some rest else none

/-- Reads the number of a host in four octets. -/
def octets (cs : List Char) : Option ((Nat × Nat × Nat × Nat) × List Char) := do
  let (a, cs) ← octet cs
  let (b, cs) ← octet (← mark '.' cs)
  let (c, cs) ← octet (← mark '.' cs)
  let (d, cs) ← octet (← mark '.' cs)
  return ((a, b, c, d), cs)

/-- What is behind the colon between two groups; there is none before the first group. -/
def nextGroup (first : Bool) (cs : List Char) : Option (List Char) :=
  if first then some cs else mark ':' cs

/-- Reads up to `n` groups; the last two may be four octets, which the flag in the result
tells. -/
def groups : Nat → Bool → List Char → List Nat × Bool × List Char
  | 0, _, cs => ([], false, cs)
  | n + 1, first, cs =>
    match nextGroup first cs with
    | none => ([], false, cs)
    | some inner =>
      match if n = 0 then none else octets inner with
      | some ((a, b, c, d), rest) => ([a * 256 + b, c * 256 + d], true, rest)
      | none =>
        match number 16 4 65535 inner with
        | none => ([], false, cs)
        | some (g, rest) =>
          let (gs, mixed, rest) := groups n false rest
          (g :: gs, mixed, rest)

/-- Reads eight groups; two colons stand for the zeros between the groups that are given. -/
def eightGroups (cs : List Char) : Option (List Nat × List Char) :=
  match groups 8 true cs with
  | (front, mixed, rest) =>
    if front.length = 8 then some (front, rest)
    else if mixed then none
    else
      match rest with
      | ':' :: ':' :: rest =>
        match groups (7 - front.length) true rest with
        | (back, _, rest) =>
          some (front ++ List.replicate (8 - front.length - back.length) 0 ++ back, rest)
      | _ => none

/-- The largest port. -/
def maxPort : Nat := 65535

/-- Reads a colon and a port up to the end. -/
def portAtEnd (cs : List Char) : Option Nat := do
  match number 10 cs.length maxPort (← mark ':' cs) with
  | some (port, []) => return port
  | _ => none

/-- Reads the scope of a host, zero if there is none. -/
def scope (cs : List Char) : Nat × List Char :=
  match mark '%' cs with
  | none => (0, cs)
  | some rest => (number 10 rest.length (Nat.pow 2 32 - 1) rest).getD (0, cs)

/-- The literal address that a text is. -/
def literal? (cs : List Char) : Option Address :=
  match octets cs with
  | some ((a, b, c, d), rest) => (portAtEnd rest).map (⟨.v4 a b c d, ·⟩)
  | none => do
    let (groups, rest) ← eightGroups (← mark '[' cs)
    let (scope, rest) := scope rest
    let port ← portAtEnd (← mark ']' rest)
    return ⟨.v6 groups scope, port⟩

/-- The parts of a text before and behind its last colon. -/
def splitLast (cs : List Char) : Option (List Char × List Char) :=
  match cs.reverse.dropWhile (· ≠ ':') with
  | [] => none
  | _ :: front => some (front.reverse, (cs.reverse.takeWhile (· ≠ ':')).reverse)

/-- The port that a text is; it may have a sign. -/
def port? (cs : List Char) : Option Nat :=
  let digits := (mark '+' cs).getD cs
  match number 10 digits.length maxPort digits with
  | some (port, []) => some port
  | _ => none

/-- The host that a text is. -/
def host? (cs : List Char) : Option Host :=
  match octets cs, eightGroups cs with
  | some ((a, b, c, d), []), _ => some (.v4 a b c d)
  | _, some (groups, []) => some (.v6 groups 0)
  | _, _ => none

/-- Why a text stands for no address. -/
inductive Fault where
  | noPort
  | badPort
  | unknownName
deriving DecidableEq, Repr

/-- The text of a fault. -/
def Fault.message : Fault → String
  | .noPort => "invalid socket address"
  | .badPort => "invalid port value"
  | .unknownName => "failed to lookup address information: Name or service not known"

/-- The address that a text stands for. -/
def resolve (text : String) : Except Fault Address :=
  match literal? text.toList with
  | some address => .ok address
  | none =>
    match splitLast text.toList with
    | none => .error .noPort
    | some (host, port) =>
      match port? port with
      | none => .error .badPort
      | some port =>
        match host? host with
        | none => .error .unknownName
        | some host => .ok ⟨host, port⟩

/-- The host of an address in a text, as certificates name it: the text before the last colon
if only digits follow it, without brackets at its ends. -/
def serverName (text : String) : String :=
  let cs := text.toList
  let host :=
    match splitLast cs with
    | some (host, port) => if port ≠ [] ∧ port.all Char.isDigit then host else cs
    | none => cs
  String.ofList (((host.dropWhile (· = '[')).reverse.dropWhile (· = ']')).reverse)

/-! ### Writing -/

/-- The first longest run of zeros: its start and its length. The run that is being counted
began at `start`, and the next group is the `i`-th. -/
def zeroRun (start i : Nat) (best : Nat × Nat) : List Nat → Nat × Nat
  | [] => best
  | g :: rest =>
    if g = 0 then
      zeroRun start (i + 1) (if best.2 < i + 1 - start then (start, i + 1 - start) else best) rest
    else zeroRun (i + 1) (i + 1) best rest

/-- Groups with colons between them. -/
def groupsText (groups : List Nat) : String :=
  String.intercalate ":" (groups.map fun g => String.ofList (Nat.toDigits 16 g))

/-- The text of a host in four octets. -/
def octetsText (a b c d : Nat) : String :=
  String.intercalate "." ([a, b, c, d].map toString)

/-- The text of a host in eight groups: the first longest run of at least two zeros is left
out, and an embedded host in four octets shows as such. -/
def eightGroupsText (groups : List Nat) : String :=
  match groups with
  | [0, 0, 0, 0, 0, 0xFFFF, x, y] =>
    "::ffff:" ++ octetsText (x / 256) (x % 256) (y / 256) (y % 256)
  | _ =>
    let (start, length) := zeroRun 0 0 (0, 0) groups
    if 1 < length then
      groupsText (groups.take start) ++ "::" ++ groupsText (groups.drop (start + length))
    else groupsText groups

/-- The text of an address. -/
def text (address : Address) : String :=
  match address.host with
  | .v4 a b c d => octetsText a b c d ++ ":" ++ toString address.port
  | .v6 groups scope =>
    let zone := if scope = 0 then "" else "%" ++ toString scope
    "[" ++ eightGroupsText groups ++ zone ++ "]:" ++ toString address.port

end Address

end StreamCall
