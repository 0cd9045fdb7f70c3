import StreamCall.Address
import StreamCall.Server.Error

/-!
# The life of a server

A server runs from the time it is bound to an address until that address is free again.
While it accepts, connections come, and each is served until it ends.  A run stops accepting
when its caller cancels it, when its socket is lost, or when the server is shut down, which
is for good; it is over once its last connection has ended.

The handler may be exchanged at any time.
-/

namespace StreamCall

/-- One run of a server. -/
structure Server.Run where
  number : Nat
  address : Address
  isAccepting : Bool
  /-- Whether its caller has cancelled it. -/
  isCancelled : Bool
  /-- The connections that are being served. -/
  serving : List Nat
deriving DecidableEq, Repr

/-- A server whose handlers have type `η`. Runs and connections are numbered in their order. -/
structure Server (η : Type) where
  handler : Option η
  run : Option Server.Run
  /-- Whether it has been shut down. -/
  isShut : Bool
  /-- Whether a run of it has come to its end. -/
  hasEnded : Bool
  runs : Nat
  connections : Nat
deriving DecidableEq, Repr

namespace Server

variable {η : Type}

/-- A server that has no handler and has never run. -/
def idle : Server η := ⟨none, none, false, false, 0, 0⟩

instance : Inhabited (Server η) := ⟨idle⟩

/-- Installs a handler. -/
def upgrade (s : Server η) (handler : η) : Server η :=
  { s with handler := some handler }

/-- Whether a handler has been installed. -/
def hasHandler (s : Server η) : Bool := s.handler.isSome

/-- The address it is bound to. -/
def address? (s : Server η) : Option Address := s.run.map Run.address

/-- Whether it is bound to an address. -/
def isBound (s : Server η) : Bool := s.address?.isSome

/-- Begins a run at an address. A server that has been shut down accepts nothing. -/
def start (s : Server η) (address : Address) : Server η :=
  { s with
    run := some
      { number := s.runs, address, isAccepting := !s.isShut, isCancelled := false
        serving := [] }
    runs := s.runs + 1 }

/-- Begins a run at the address that a text stands for. `bind` says which address the socket
gets; it may ask for any free port. -/
def listen (s : Server η) (hasTls : Bool) (bind : Address → Except IoError Address)
    (text : String) : Except ServerError (Server η) :=
  if hasTls then
    match Address.resolve text with
    | .error fault => .error (.invalidAddress text fault.message)
    | .ok address =>
      match bind address with
      | .error e => .error (.bindFailed text e)
      | .ok bound => .ok (s.start bound)
  else .error .missingTlsConfig

/-- Accepts a connection. -/
def accept? (s : Server η) : Option (Nat × Server η) :=
  match s.run with
  | none => none
  | some run =>
    if run.isAccepting then
      some (s.connections,
        { s with
          run := some { run with serving := s.connections :: run.serving }
          connections := s.connections + 1 })
    else none

/-- Changes the run. -/
def mapRun (f : Run → Run) (s : Server η) : Server η :=
  { s with run := s.run.map f }

/-- A connection ends. -/
def leave (s : Server η) (connection : Nat) : Server η :=
  s.mapRun fun run => { run with serving := run.serving.filter (· ≠ connection) }

/-- The caller of the run cancels it; then its connections end, too. -/
def cancel (s : Server η) : Server η :=
  s.mapRun fun run => { run with isAccepting := false, isCancelled := true }

/-- The socket of the run is lost. -/
def loseSocket (s : Server η) : Server η :=
  s.mapRun fun run => { run with isAccepting := false }

/-- Shuts the server down. -/
def shut (s : Server η) : Server η :=
  { s.mapRun fun run => { run with isAccepting := false } with isShut := true }

/-- Whether the run accepts nothing more and serves nothing. -/
def Run.isOver (run : Run) : Bool := !run.isAccepting && run.serving.isEmpty

/-- Frees the address if the run is over. -/
def settle (s : Server η) : Server η :=
  if s.run.any Run.isOver then { s with run := none, hasEnded := true } else s

end Server

end StreamCall
