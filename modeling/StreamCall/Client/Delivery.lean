import StreamCall.Client.Pool
import StreamCall.Client.Send
import StreamCall.Server.Accepted

/-!
# A network that delivers

A client and one server on a network on which everything arrives.  Every address leads to
the server; what one side of a stream sends reaches the other in order, cut into pieces, and
then comes the signal it ended with.  The server serves a stream when the client begins to
read the response.

A call over such a network is itself a program that uses the surroundings alone, so the
handler of one server can make calls to the next one.
-/

namespace StreamCall.Client

/-- A client and its server. -/
structure Delivery (ν : Type) where
  /-- The handler that the server has installed. -/
  handler : Option (Handler ν)
  /-- The token above those of accepted streams. -/
  token : Token
  pool : Pool
  /-- The streams of the client, by their numbers. -/
  streams : List WireStream
  /-- How what is sent is cut into pieces. -/
  cut : Bytes → List Bytes

namespace Delivery

variable {ν : Type}

/-- A client that has made no calls, and its server; nothing is cut. -/
def fresh (handler : Option (Handler ν)) (token : Token) : Delivery ν :=
  { handler, token, pool := .empty, streams := [], cut := fun data => [data] }

/-- The server serves a stream of the client; the result is the client's stream with the
response. -/
def exchange (d : Delivery ν) (stream : WireStream) : Program (Ambient ν) WireStream :=
  .step (.branch d.token) fun (token : Token) =>
    let accepted := (stream.outgoing d.cut).foldl WireStream.receive (.fresh stream.id token)
    (accepted.serve d.handler).bind fun served =>
      .done ((served.outgoing d.cut).foldl WireStream.receive stream)

/-- An operation that gets no answer. -/
def wait {α : Type} : Program (Ambient ν) α :=
  .step .hang fun (never : Empty) => never.elim

/-- The answer of an operation on a stream of the client, with the stream put back. -/
def settled {α : Type} (d : Delivery ν) (stream : Nat) :
    Option (α × WireStream) → Program (Ambient ν) (α × Delivery ν)
  | some (answer, s) => .done (answer, { d with streams := d.streams.set stream s })
  | none => wait

/-- What an operation of a call means. -/
def meaning (d : Delivery ν) :
    (op : (Calling ν).Op) → Program (Ambient ν) ((Calling ν).Answer op × Delivery ν)
  | .inl op => .step op fun answer => .done (answer, d)
  | .inr (.sleep _) => .done ((), d)
  | .inr .yield => .done ((), d)
  | .inr (.lookup address) =>
    let (connection, pool) := d.pool.lookup address
    .done (connection, { d with pool })
  | .inr (.dial address) =>
    match dialTarget address with
    | .error e => .done (.error e, d)
    | .ok _ =>
      let (connection, pool) := d.pool.establish
      .done (.ok connection, { d with pool })
  | .inr (.adopt address connection) =>
    let (connection, pool) := d.pool.adopt address connection
    .done (connection, { d with pool })
  | .inr (.openStream connection) =>
    if d.pool.isLive connection then
      let id := d.streams.length
      .done (.ok id, { d with streams := d.streams ++ [.fresh id d.token] })
    else .done (.error (.connection .closedLocally), d)
  | .inr (.onStream stream op) =>
    .step .now fun (now : Nat) =>
      d.settled stream ((d.streams[stream]?).bind fun s => s.answer? now op)
  | .inr (.collect stream chunk) =>
    match d.streams[stream]? with
    | none => wait
    | some s =>
      (d.exchange s).bind fun s =>
        .step .now fun (now : Nat) => d.settled stream (s.collect? now chunk)

/-- A round trip over the network, as a program on the surroundings. -/
def call (d : Delivery ν) (trip : RoundTrip ν) (ctx : Context) (request : Request) :
    Program (Ambient ν) (Except ClientError Response × Delivery ν) :=
  Program.through meaning d (trip ctx request)

/-- What a call of the caller with a token is run against. -/
def setting (caller : Token) : Setting ν (World ν × Delivery ν) :=
  { answer := fun _ (w, d) op =>
      match (d.meaning op).run World.answer w with
      | (.done (answer, d), w) => (.now answer, w, d)
      | (_, w) => (.never, w, d)
    isCancelled := fun (w, _) => w.tokens.isCancelled caller }

end Delivery

end StreamCall.Client
