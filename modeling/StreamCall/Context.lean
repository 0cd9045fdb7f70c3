import StreamCall.Token
import StreamCall.RequestId
import StreamCall.Envelope.Message

/-!
# Contexts

A context goes with a call through every part that serves it: the token that cancels the
call, and what has been found out on the way in.  Contexts are values; a part that knows
more hands on an extended one.
-/

namespace StreamCall

/-- What goes with a call. -/
structure Context where
  token : Token
  request : Option Request
  requestId : Option RequestId
  /-- The largest body the call accepts. -/
  bodyLimit : Option Nat
deriving DecidableEq, Inhabited

namespace Context

/-- A context that only has a token. -/
def ofToken (token : Token) : Context := ⟨token, none, none, none⟩

/-- The same context under another token. -/
def withToken (c : Context) (token : Token) : Context := { c with token }

/-- Sets the request. -/
def withRequest (c : Context) (request : Request) : Context :=
  { c with request := some request }

/-- Sets the id of the request. -/
def withRequestId (c : Context) (id : RequestId) : Context :=
  { c with requestId := some id }

/-- Sets the largest body the call accepts. -/
def withBodyLimit (c : Context) (limit : Nat) : Context :=
  { c with bodyLimit := some limit }

end Context

end StreamCall
