import StreamCall.Error.Envelope
import StreamCall.Duration

/-!
# Errors of a call

Why a call fails on the caller's side.  A handler's failure reaches the caller as the code
that its stream was reset with.
-/

namespace StreamCall

/-- Why a call fails. -/
inductive ClientError where
  | invalidAddress (address reason : String)
  | endpoint (source : IoError)
  | connect (source : Transport.ConnectFault)
  | connection (source : Transport.ConnectionFault)
  | dialTimeout (address : String) (limit : Duration)
  | timeout (limit : Duration)
  | cancelled
  | io (source : IoError)
  | envelope (source : EnvelopeError)

namespace ClientError

/-- The name of the kind of an error. -/
def name : ClientError → String
  | .invalidAddress _ _ => "InvalidAddress"
  | .endpoint _ => "Endpoint"
  | .connect _ => "Connect"
  | .connection _ => "Connection"
  | .dialTimeout _ _ => "DialTimeout"
  | .timeout _ => "Timeout"
  | .cancelled => "Cancelled"
  | .io _ => "Io"
  | .envelope _ => "Envelope"

/-- The text of an error. -/
def message : ClientError → String
  | .invalidAddress address reason => "invalid address '" ++ address ++ "': " ++ reason
  | .endpoint source => "failed to create client endpoint: " ++ source.message
  | .connect source => "failed to connect: " ++ source.message
  | .connection source => "connection failed: " ++ source.message
  | .dialTimeout address limit =>
    "timed out dialing " ++ address ++ " after " ++ limit.text
  | .timeout limit => "request timed out after " ++ limit.text
  | .cancelled => "request cancelled"
  | .io source => "stream I/O failed: " ++ source.message
  | .envelope source => source.message

/-- The texts of what an error comes from. An envelope error shows as itself, so its own
causes follow. -/
def chain : ClientError → List String
  | .endpoint source => source.message :: source.chain
  | .connect source => [source.message]
  | .connection source => [source.message]
  | .io source => source.message :: source.chain
  | .envelope source => source.chain
  | _ => []

/-- Whether the call or the dial ran out of time. -/
def isTimeout : ClientError → Bool
  | .timeout _ => true
  | .dialTimeout _ _ => true
  | .connection .timedOut => true
  | _ => false

/-- Whether the caller gave the call up. -/
def isCancelled : ClientError → Bool
  | .cancelled => true
  | _ => false

/-- The code the server ended the stream with, if that is the error. -/
def streamCode? : ClientError → Option Nat
  | .io source => source.streamCode?
  | .envelope source => source.streamCode?
  | _ => none

/-- Writes the addresses in an error in another way. -/
def mapAddress (f : String → String) : ClientError → ClientError
  | .invalidAddress address reason => .invalidAddress (f address) reason
  | .connect (.invalidRemoteAddress address) => .connect (.invalidRemoteAddress (f address))
  | .dialTimeout address limit => .dialTimeout (f address) limit
  | e => e

/-- An error in diagnostic output. -/
def diagnostic : ClientError → String
  | .invalidAddress address reason =>
    "InvalidAddress \x7b address: " ++ Text.quoted address ++ ", reason: "
      ++ Text.quoted reason ++ " \x7d"
  | .endpoint source => "Endpoint(" ++ source.diagnostic ++ ")"
  | .connect source => "Connect(" ++ source.diagnostic ++ ")"
  | .connection source => "Connection(" ++ source.diagnostic ++ ")"
  | .dialTimeout address limit =>
    "DialTimeout \x7b address: " ++ Text.quoted address ++ ", timeout: " ++ limit.text
      ++ " \x7d"
  | .timeout limit => "Timeout(" ++ limit.text ++ ")"
  | .cancelled => "Cancelled"
  | .io source => "Io(" ++ source.diagnostic ++ ")"
  | .envelope source => "Envelope(" ++ source.diagnostic ++ ")"

end ClientError

end StreamCall
