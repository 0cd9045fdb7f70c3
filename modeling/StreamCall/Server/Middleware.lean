import StreamCall.Envelope.Limit
import StreamCall.Server.Handler

/-!
# Middlewares

The parts of the usual chain, outermost first: `errorHandler` reports a failure and resets
the stream with its code; `maxBody` limits what is read; `decodeRequest` puts the decoded
request into the context; `attachRequestId` does so with the id of the request; `recovery`
makes an error of a panic.  `defaultChain` is the list of them.
-/

namespace StreamCall.Middleware

variable {ν : Type}

/-- Makes an error of a panic. -/
def recovery : Middleware ν := fun next ctx =>
  (next ctx).recover fun payload => Serving.fail (.ofPanic payload)

/-- The event of a failure. -/
def failureEvent (e : HandlerError) (stream : Nat) : Event :=
  { level := e.logLevel
    message := "Stream handler failed: " ++ e.display
    stream
    code := some e.wireCode
    spans := [] }

/-- Logs a failure and resets the stream with its code; the error goes on. -/
def errorHandler : Middleware ν := fun next ctx =>
  Serving.streamId.bind fun stream =>
    (next ctx).bind fun
      | .ok _ => .done (.ok ())
      | .error e =>
        (Serving.log (failureEvent e stream)).bind fun _ =>
          (Serving.onStream (Stream.ask (.cancelWrite e.wireCode))).bind fun _ => Serving.fail e

/-- Limits bodies to `limit` bytes: no more is read than the largest envelope with such a
body, and the context tells the limit to whoever decodes it. -/
def maxBody (limit : Nat) : Middleware ν := fun next ctx =>
  (Serving.withLayer (.limit (Envelope.maxSize limit)) (next (ctx.withBodyLimit limit))).bind
    fun r => .done r.1

/-- The event of a decoded request. -/
def decodedEvent (request : Request) (stream : Nat) : Event :=
  { level := .trace
    message := "Decoded request with " ++ toString request.body.length ++ " body bytes and "
      ++ toString request.headers.size ++ " headers"
    stream
    code := none
    spans := [] }

/-- Decodes the request that the whole input holds, and refuses a body over the limit in the
context. -/
def decodeRequest : Middleware ν := fun next ctx =>
  (Serving.onStream (Stream.readEnvelope .request)).bind fun
    | .error e => Serving.fail (.classify (.envelope e))
    | .ok envelope =>
      let request := envelope.request
      let size := request.body.length
      match ctx.bodyLimit.filter (· < size) with
      | some limit => Serving.fail (.classify (.envelope (.bodyTooLarge size limit)))
      | none =>
        Serving.streamId.bind fun stream =>
          (Serving.log (decodedEvent request stream)).bind fun _ =>
            next (ctx.withRequest request)

/-- The id of a request: the one its header holds, or a fresh one. -/
def requestIdOf (request : Request) : Program (Ambient ν) RequestId :=
  match (request.headers.get? RequestId.header).bind RequestId.parse with
  | some id => .done id
  | none => RequestId.generate

/-- Puts the id of the request into the context, and runs the rest in its course. -/
def attachRequestId : Middleware ν := fun next ctx =>
  match ctx.request with
  | none => Serving.fail missingRequest
  | some request =>
    (Serving.onSurroundings (requestIdOf request)).bind fun id =>
      Serving.withSpan id (next (ctx.withRequestId id))

/-- Which bodies are logged. -/
structure LogConfig where
  request : Bool
  response : Bool
deriving DecidableEq, Repr, Inhabited

/-- Both bodies or none. -/
def LogConfig.both (on : Bool) : LogConfig := ⟨on, on⟩

/-- The event of a body that passed. -/
def trafficEvent (name : String) (data : Bytes) (stream : Nat) : Event :=
  { level := .debug
    message := "Quic " ++ name ++ " body: " ++ Utf8.lossy data
    stream
    code := none
    spans := [] }

/-- Logs a body, if that is wanted. -/
def logBody (on : Bool) (name : String) (data : Bytes) (stream : Nat) : Serving ν Unit :=
  if on then Serving.log (trafficEvent name data stream) else .done ()

/-- Logs what was read and what was written, once the rest has succeeded. -/
def logTraffic (config : LogConfig) : Middleware ν := fun next ctx =>
  (Serving.withLayer .fresh (next ctx)).bind fun
    | (.ok _, .tee read written) =>
      Serving.streamId.bind fun stream =>
        (logBody config.request "request" read stream).bind fun _ =>
          (logBody config.response "response" written stream).bind fun _ => .done (.ok ())
    | (result, _) => .done result

/-- The usual chain, for bodies of at most `limit` bytes. -/
def defaultChain (limit : Nat) : List (Middleware ν) :=
  [errorHandler, maxBody limit, decodeRequest, attachRequestId, recovery]

end StreamCall.Middleware
