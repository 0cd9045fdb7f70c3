import StreamCall.Transport.Config

/-!
# Settings of a client
-/

namespace StreamCall.Client

/-- Settings of a client. -/
structure Config where
  transport : Transport.Config
  /-- How long a connection attempt may take. -/
  dialTimeout : Duration
  /-- How many bytes of a response are read at once. -/
  readBuffer : Nat
deriving DecidableEq, Repr

namespace Config

/-- How long a connection attempt usually may take. -/
def standardDial : Duration := .ofSecs 5 0

/-- How many bytes of a response are usually read at once. -/
def standardBuffer : Nat := 4096

/-- The usual settings. -/
def standard : Config := ⟨.standard, standardDial, standardBuffer⟩

instance : Inhabited Config := ⟨standard⟩

/-- The settings a client works with: a zero stands for the usual value. -/
def effective (c : Config) : Config :=
  { c with
    dialTimeout := if c.dialTimeout.nanos = 0 then standardDial else c.dialTimeout
    readBuffer := if c.readBuffer = 0 then standardBuffer else c.readBuffer }

end Config

end StreamCall.Client
