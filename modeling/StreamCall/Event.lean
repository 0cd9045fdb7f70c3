import StreamCall.RequestId
import StreamCall.Error.Level

/-!
# Events

What the parts of a server log.
-/

namespace StreamCall

/-- An event about a stream. -/
structure Event where
  level : Level
  message : String
  /-- The number of the stream. -/
  stream : Nat
  /-- The code that a failure travels as. -/
  code : Option Nat
  /-- The requests in whose course the event occurred, the outermost first. -/
  spans : List RequestId
deriving DecidableEq, Repr

/-- The event as part of the course of a request. -/
def Event.within (e : Event) (id : RequestId) : Event :=
  { e with spans := id :: e.spans }

end StreamCall
