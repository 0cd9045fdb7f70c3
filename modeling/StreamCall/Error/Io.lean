import StreamCall.Transport.Fault

/-!
# Input and output errors

An error of reading or writing has a kind.  It is the bare kind, a kind with a text of its
own, or what a transport stream reported.
-/

namespace StreamCall

/-- The kinds of input and output errors. -/
inductive IoKind where
  | notFound
  | permissionDenied
  | connectionRefused
  | connectionReset
  | connectionAborted
  | notConnected
  | addrInUse
  | addrNotAvailable
  | brokenPipe
  | alreadyExists
  | wouldBlock
  | invalidInput
  | invalidData
  | timedOut
  | writeZero
  | interrupted
  | unsupported
  | unexpectedEof
  | outOfMemory
  | other
deriving DecidableEq, Repr, Inhabited

namespace IoKind

/-- The name of a kind. -/
def name : IoKind → String
  | .notFound => "NotFound"
  | .permissionDenied => "PermissionDenied"
  | .connectionRefused => "ConnectionRefused"
  | .connectionReset => "ConnectionReset"
  | .connectionAborted => "ConnectionAborted"
  | .notConnected => "NotConnected"
  | .addrInUse => "AddrInUse"
  | .addrNotAvailable => "AddrNotAvailable"
  | .brokenPipe => "BrokenPipe"
  | .alreadyExists => "AlreadyExists"
  | .wouldBlock => "WouldBlock"
  | .invalidInput => "InvalidInput"
  | .invalidData => "InvalidData"
  | .timedOut => "TimedOut"
  | .writeZero => "WriteZero"
  | .interrupted => "Interrupted"
  | .unsupported => "Unsupported"
  | .unexpectedEof => "UnexpectedEof"
  | .outOfMemory => "OutOfMemory"
  | .other => "Other"

/-- All kinds. -/
def all : List IoKind :=
  [.notFound, .permissionDenied, .connectionRefused, .connectionReset, .connectionAborted,
   .notConnected, .addrInUse, .addrNotAvailable, .brokenPipe, .alreadyExists, .wouldBlock,
   .invalidInput, .invalidData, .timedOut, .writeZero, .interrupted, .unsupported,
   .unexpectedEof, .outOfMemory, .other]

/-- The kind of a name. -/
def ofName? (s : String) : Option IoKind :=
  all.find? (·.name = s)

/-- The text of a bare kind. -/
def message : IoKind → String
  | .notFound => "entity not found"
  | .permissionDenied => "permission denied"
  | .connectionRefused => "connection refused"
  | .connectionReset => "connection reset"
  | .connectionAborted => "connection aborted"
  | .notConnected => "not connected"
  | .addrInUse => "address in use"
  | .addrNotAvailable => "address not available"
  | .brokenPipe => "broken pipe"
  | .alreadyExists => "entity already exists"
  | .wouldBlock => "operation would block"
  | .invalidInput => "invalid input parameter"
  | .invalidData => "invalid data"
  | .timedOut => "timed out"
  | .writeZero => "write zero"
  | .interrupted => "operation interrupted"
  | .unsupported => "unsupported"
  | .unexpectedEof => "unexpected end of file"
  | .outOfMemory => "out of memory"
  | .other => "other error"

end IoKind

/-- An error of reading or writing. -/
inductive IoError where
  | bare (kind : IoKind)
  | text (kind : IoKind) (message : String)
  | stream (fault : Transport.StreamFault)
deriving DecidableEq, Repr

namespace IoError

/-- The kind that a stream fault counts as. -/
def kindOfStream : Transport.StreamFault → IoKind
  | .reset _ => .connectionReset
  | .stopped _ => .connectionReset
  | .connectionLost _ => .notConnected
  | .outOfOrder => .invalidInput
  | .rejected => .connectionReset
  | .unknownStream => .notConnected

/-- The kind of an error. -/
def kind : IoError → IoKind
  | .bare kind => kind
  | .text kind _ => kind
  | .stream fault => kindOfStream fault

/-- The text of an error. -/
def message : IoError → String
  | .bare kind => kind.message
  | .text _ message => message
  | .stream fault => fault.message

/-- The texts of what an error comes from. -/
def chain : IoError → List String
  | .stream fault => fault.chain
  | _ => []

/-- The code the peer ended the stream with, if that is the error. -/
def streamCode? : IoError → Option Nat
  | .stream fault => fault.code?
  | _ => none

/-- An error in diagnostic output. -/
def diagnostic : IoError → String
  | .bare kind => "Kind(" ++ kind.name ++ ")"
  | .text kind message =>
    "Custom \x7b kind: " ++ kind.name ++ ", error: " ++ Text.quoted message ++ " \x7d"
  | .stream fault =>
    "Custom \x7b kind: " ++ (kindOfStream fault).name ++ ", error: " ++ fault.diagnostic
      ++ " \x7d"

end IoError

end StreamCall
