import StreamCall.Ambient
import StreamCall.Context
import StreamCall.Client.Error
import StreamCall.Stream.Operation

/-!
# Calls

A round trip takes a request to a response: given the context of the call, it is a program
that uses the surroundings, the clock and the network.  `physical` is the round trip that
does so over a connection; middlewares amend requests on the way there, and `chain` puts a
list of them around a round trip, the first outermost.
-/

namespace StreamCall.Client

/-- An operation of a call on the clock or on the network. Connections and streams are
numbered. -/
inductive CallOp where
  | sleep (span : Duration)
  /-- Lets others go on. -/
  | yield
  /-- The live connection to an address that is kept for calls. -/
  | lookup (address : String)
  /-- Opens a connection to an address. -/
  | dial (address : String)
  /-- Keeps a new connection for calls, unless another one is kept. -/
  | adopt (address : String) (connection : Nat)
  | openStream (connection : Nat)
  | onStream (stream : Nat) (op : StreamOp)
  /-- Reads a stream to its end, by at most `chunk` bytes at once. -/
  | collect (stream : Nat) (chunk : Nat)

/-- The answer to an operation. -/
def CallOp.Answer : CallOp → Type
  | .sleep _ => Unit
  | .yield => Unit
  | .lookup _ => Option Nat
  | .dial _ => Except ClientError Nat
  | .adopt _ _ => Nat
  | .openStream _ => Except ClientError Nat
  | .onStream _ op => op.Answer
  | .collect _ _ => Except IoError Bytes

/-- The operations of a call on the clock and on the network. -/
abbrev Network : Signature := ⟨CallOp, CallOp.Answer⟩

/-- What a round trip can use. -/
abbrev Calling (ν : Type) : Signature := (Ambient ν).sum Network

/-- Takes a request to a response. -/
abbrev RoundTrip (ν : Type) :=
  Context → Request → Program (Calling ν) (Except ClientError Response)

/-- Makes a round trip from a round trip. -/
abbrev Middleware (ν : Type) := RoundTrip ν → RoundTrip ν

variable {ν α : Type}

/-- Puts middlewares around a round trip, the first outermost. -/
def chain (middlewares : List (Middleware ν)) (trip : RoundTrip ν) : RoundTrip ν :=
  middlewares.foldr (fun middleware next => middleware next) trip

/-- Asks one operation of the network. -/
def ask (op : CallOp) : Program (Calling ν) op.Answer :=
  .step (.inr op) .done

/-- A program on the surroundings alone. -/
def onSurroundings (p : Program (Ambient ν) α) : Program (Calling ν) α := p.inl

/-- Runs a program on a stream. -/
def onStream (stream : Nat) (p : Stream.Use α) : Program (Calling ν) α :=
  (Program.through (fun () op => (ask (.onStream stream op)).bind fun a => .done (a, ()))
    () p).bind fun r => .done r.1

/-! ### Middlewares -/

/-- The id that a request without one is given. -/
def idToInject (ctx : Context) : Program (Ambient ν) RequestId :=
  match ctx.requestId with
  | some id => .done id
  | none => RequestId.generate

/-- Gives a request that has no id the one in the context, or a fresh one. -/
def injectRequestId : Middleware ν := fun next ctx request =>
  if request.headers.contains RequestId.header then next ctx request
  else
    (onSurroundings (idToInject ctx)).bind fun id =>
      next ctx { request with headers := request.headers.insert RequestId.header id.text }

/-! ### The physical round trip -/

/-- The connection for a call: the one that is kept, or a new one. -/
def connection (address : String) : Program (Calling ν) (Except ClientError Nat) :=
  (ask (.lookup address)).bind fun (kept : Option Nat) =>
    match kept with
    | some connection => .done (.ok connection)
    | none =>
      (ask (.dial address)).bind fun (dialed : Except ClientError Nat) =>
        match dialed with
        | .error e => .done (.error e)
        | .ok fresh =>
          (ask (.adopt address fresh)).bind fun (connection : Nat) => .done (.ok connection)

/-- The error of a request that could not be written. A server that refuses a request stops
it and resets the response; then the code of the reset is what counts. -/
def refusal (written : EnvelopeError) : Except IoError Bytes → ClientError
  | .error e => if e.streamCode?.isSome then .io e else .envelope written
  | .ok _ => .envelope written

/-- The response that has arrived. -/
def arrived : Except IoError Bytes → Except ClientError Response
  | .error e => .error (.io e)
  | .ok document =>
    match Envelope.decode .response document with
    | .ok envelope => .ok envelope.response
    | .error e => .error (.envelope (.decodeResponse e))

/-- Exchanges a request for a response on a stream. -/
def exchange (chunk stream : Nat) (request : Request) :
    Program (Calling ν) (Except ClientError Response) :=
  (onStream stream (Stream.writeEnvelope request.envelope)).bind fun written =>
    (ask (.collect stream chunk)).bind fun (read : Except IoError Bytes) =>
      match written with
      | .error e => .done (.error (refusal e read))
      | .ok _ => .done (arrived read)

/-- The round trip over a connection, on a stream of its own. -/
def physical (chunk : Nat) : RoundTrip ν := fun _ request =>
  (connection request.address).bind fun
    | .error e => .done (.error e)
    | .ok connection =>
      (ask (.openStream connection)).bind fun (opened : Except ClientError Nat) =>
        match opened with
        | .error e => .done (.error e)
        | .ok stream => exchange chunk stream request

end StreamCall.Client
