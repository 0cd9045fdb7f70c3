import StreamCall.Address
import StreamCall.Client.Error

/-!
# Connection pools

A client keeps at most one connection for an address.  That a kept connection has been
closed is noticed when its address is asked for next; the connection is then evicted.
Nothing is locked while a connection is opened, so several calls may open one to the same
address: the first to adopt its connection wins, and the others close theirs.

`Pool.lookup`, `Pool.establish` and `Pool.adopt` are the steps of a call; steps of several
calls may come in any order.
-/

namespace StreamCall.Client

/-- The connections of a client. They are numbered in the order they were opened. -/
structure Pool where
  /-- The connections that are kept, with their addresses. -/
  kept : List (String × Nat)
  /-- The connections that have been closed. -/
  closed : List Nat
  /-- How many connections have been opened. -/
  dials : Nat
  /-- How many closed connections have been taken out. -/
  evictions : Nat
  /-- Whether the client has been closed. -/
  isShut : Bool
deriving DecidableEq, Repr

namespace Pool

/-- No connections. -/
def empty : Pool := ⟨[], [], 0, 0, false⟩

instance : Inhabited Pool := ⟨empty⟩

/-- Whether a connection is alive. -/
def isLive (p : Pool) (connection : Nat) : Bool :=
  !p.closed.contains connection

/-- The connection that is kept for an address. -/
def get? (p : Pool) (address : String) : Option Nat :=
  (p.kept.find? (·.1 = address)).map Prod.snd

/-- The connections that are kept for other addresses. -/
def without (p : Pool) (address : String) : List (String × Nat) :=
  p.kept.filter (·.1 ≠ address)

/-- The live connection for an address; a closed one is evicted. -/
def lookup (p : Pool) (address : String) : Option Nat × Pool :=
  match p.get? address with
  | none => (none, p)
  | some connection =>
    if p.isLive connection then (some connection, p)
    else (none, { p with kept := p.without address, evictions := p.evictions + 1 })

/-- Opens a connection, which is then held by the call that asked for it. A client that has
been closed closes it at once. -/
def establish (p : Pool) : Nat × Pool :=
  (p.dials,
    { p with
      dials := p.dials + 1
      closed := if p.isShut then p.dials :: p.closed else p.closed })

/-- Closes a connection. -/
def close (p : Pool) (connection : Nat) : Pool :=
  { p with closed := connection :: p.closed }

/-- Keeps a connection for an address, unless a live one is kept: then the new one is closed.
The result is the one that is kept. -/
def adopt (p : Pool) (address : String) (connection : Nat) : Nat × Pool :=
  match p.get? address with
  | none => (connection, { p with kept := (address, connection) :: p.kept })
  | some other =>
    if p.isLive other then (other, p.close connection)
    else
      (connection,
        { p with
          kept := (address, connection) :: p.without address
          evictions := p.evictions + 1 })

/-- Closes all connections, also those held by calls, and the client. -/
def shut (p : Pool) : Pool :=
  { p with kept := [], closed := List.range p.dials ++ p.closed, isShut := true }

/-- How many connections are kept and alive. -/
def live (p : Pool) : Nat :=
  (p.kept.filter fun e => p.isLive e.2).length

end Pool

/-- The address a connection is opened to: one that the socket of a client, which knows hosts
in four octets, can reach, and whose host a certificate can name. -/
def dialTarget (text : String) : Except ClientError Address :=
  match Address.resolve text with
  | .error fault => .error (.invalidAddress text fault.message)
  | .ok address =>
    let name := Address.serverName text
    match address.host with
    | .v6 _ _ => .error (.connect (.invalidRemoteAddress address.text))
    | .v4 a b c d =>
      if address.port = 0 ∨ [a, b, c, d] = [0, 0, 0, 0] then
        .error (.connect (.invalidRemoteAddress address.text))
      else if (Address.host? name.toList).isNone then .error (.connect (.invalidDnsName name))
      else .ok address

end StreamCall.Client
