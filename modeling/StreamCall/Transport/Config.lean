import StreamCall.Duration
import StreamCall.Transport.Fault
import StreamCall.Text.Utf8

/-!
# Settings of the transport

What both sides of a connection can set, and the protocol they agree on.
-/

namespace StreamCall.Transport

/-- The name of the protocol that connections are opened for. -/
def protocolName : Bytes := Utf8.encode "qrpc"

/-- Settings of the transport. -/
structure Config where
  /-- How long a connection may be idle. -/
  maxIdle : Duration
  /-- How often an idle connection is kept alive, if at all. -/
  keepAlive : Option Duration
  /-- How many streams the peer may have open. -/
  maxStreams : Nat
  /-- How many bytes of a stream may be under way. -/
  receiveWindow : Nat
  initialMtu : Nat
  migration : Bool
deriving DecidableEq, Repr

namespace Config

/-- The usual settings. -/
def standard : Config :=
  { maxIdle := .ofSecs 60 0
    keepAlive := some (.ofSecs 15 0)
    maxStreams := 100
    receiveWindow := 1048576
    initialMtu := 1200
    migration := true }

instance : Inhabited Config := ⟨standard⟩

/-- The idle time in milliseconds that stands for one that cannot travel. -/
def fallbackIdle : Nat := 60000

/-- The idle time in milliseconds, as it travels. -/
def idleMillis (c : Config) : Nat :=
  if c.maxIdle.millis ≤ maxCode then c.maxIdle.millis else fallbackIdle

end Config

end StreamCall.Transport
