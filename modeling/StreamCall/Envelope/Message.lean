import StreamCall.Text.Utf8
import StreamCall.Duration
import StreamCall.Envelope.Headers

/-!
# Messages

A request and a response.  Only the body and the headers travel; the address and the
timeout of a request say how the caller wants it to be sent.
-/

namespace StreamCall

/-- What travels of a message. -/
structure Envelope where
  body : Bytes
  headers : Headers
deriving DecidableEq, Inhabited

/-- A request. -/
structure Request where
  address : String
  timeout : Option Duration
  body : Bytes
  headers : Headers
deriving DecidableEq, Inhabited

/-- A response. -/
structure Response where
  body : Bytes
  headers : Headers
deriving DecidableEq, Inhabited

/-- What travels of a request. -/
def Request.envelope (r : Request) : Envelope := ⟨r.body, r.headers⟩

/-- What travels of a response. -/
def Response.envelope (r : Response) : Envelope := ⟨r.body, r.headers⟩

/-- The request that arrives: nothing is known of its address and timeout. -/
def Envelope.request (e : Envelope) : Request := ⟨"", none, e.body, e.headers⟩

/-- The response that arrives. -/
def Envelope.response (e : Envelope) : Response := ⟨e.body, e.headers⟩

end StreamCall
