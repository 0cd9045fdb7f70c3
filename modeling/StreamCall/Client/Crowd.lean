import StreamCall.Client.Plan
import StreamCall.Client.Pool
import StreamCall.Client.Send
import StreamCall.Server.Accepted
import StreamCall.Server.Plan

/-!
# Calls in a crowd

A client makes any number of calls to a server, whose handler may be exchanged meanwhile.
`Crowd.step?` is one step of all this: the handler is exchanged, a call comes, time passes, or
one call makes a move.  A `Move` is an operation of the call or of the handler that serves its
stream, or a part of what one of the two has sent gets to the other, or the call is cancelled or
given up.

Each call has a stream of its own.  The calls share what is `Shared`: the handler that is
installed, the connections of the client, the tokens and the other surroundings.
-/

namespace StreamCall.Client

variable {ν : Type}

/-! ### A stream and its two sides -/

/-- What a server does with a stream it has accepted. -/
structure Duty (ν : Type) where
  /-- The handler that was installed when the stream was accepted. -/
  handler : Option (Handler ν)
  /-- The stream as the server sees it. -/
  stream : WireStream
  /-- What is still to be done. -/
  rest : Serving ν Unit
  /-- Whether the server has let go of the stream. -/
  isOver : Bool

namespace Duty

/-- What a server begins to do with a stream that it accepts. -/
def begin (handler : Option (Handler ν)) (id : Nat) (token : Token) : Duty ν :=
  { handler, stream := .fresh id token, rest := serveAccepted handler, isOver := false }

/-- The next operation of the handler. -/
def serve? (d : Duty ν) (w : World ν) : Option (Duty ν × World ν) :=
  match d.rest with
  | .step (.inl op) next => (w.answer op).map fun r => ({ d with rest := next r.1 }, r.2)
  | .step (.inr op) next =>
    (d.stream.answer? w.clock op).map fun r => ({ d with stream := r.2, rest := next r.1 }, w)
  | _ => none

/-- A handler that pauses is let on. -/
def release? (d : Duty ν) : Option (Duty ν) :=
  match d.rest with
  | .step (.inl .pause) next => some { d with rest := next () }
  | _ => none

/-- Once the handler has ended, or has panicked, the server lets go of the stream. -/
def leave? (d : Duty ν) (w : World ν) : Option (Duty ν × World ν) :=
  match d.rest with
  | .step _ _ => none
  | _ =>
    if d.isOver then none
    else
      some ({ d with stream := d.stream.drop, isOver := true },
        { w with tokens := w.tokens.cancel d.stream.token })

end Duty

/-- A part of what one side of a stream sends to the other. -/
inductive Load where
  | bytes (n : Nat)
  | signal
  /-- That the other side should send no more. -/
  | stop
deriving DecidableEq, Repr

/-- How much of what one side of a stream has sent has got to the other. -/
structure Carried where
  bytes : Nat
  signals : Nat
  stop : Bool
deriving DecidableEq, Repr

namespace Carried

/-- Nothing. -/
def nothing : Carried := ⟨0, 0, false⟩

/-- Carries one more part, if there is one. That a side is finished comes behind all bytes. -/
def next? (c : Carried) (sender : WireStream) : Load → Option (PeerEvent × Carried)
  | .bytes n =>
    if c.bytes + n ≤ sender.sent.length then
      some (.send ((sender.sent.drop c.bytes).take n), { c with bytes := c.bytes + n })
    else none
  | .signal =>
    match sender.signals[c.signals]? with
    | some .finish =>
      if c.bytes = sender.sent.length then
        some (.signal .finish, { c with signals := c.signals + 1 })
      else none
    | some (.reset code) => some (.signal (.reset code), { c with signals := c.signals + 1 })
    | none => none
  | .stop =>
    match sender.readStopped with
    | some code => if c.stop then none else some (.stop code, { c with stop := true })
    | none => none

end Carried

/-- A stream between a call and the server. -/
structure Strand (ν : Type) where
  /-- The stream as the client sees it. -/
  near : WireStream
  /-- What the server does with it, once it has accepted it. -/
  duty : Option (Duty ν)
  /-- What has got to the server. -/
  there : Carried
  /-- What has got to the client. -/
  back : Carried

namespace Strand

/-- A stream that the server has not accepted. -/
def opened (id : Nat) (token : Token) : Strand ν :=
  { near := .fresh id token, duty := none, there := .nothing, back := .nothing }

/-- One more part of what the client has sent gets to the server. -/
def carryThere? (s : Strand ν) (load : Load) : Option (Strand ν) :=
  match s.duty with
  | none => none
  | some duty =>
    (s.there.next? s.near load).map fun r =>
      { s with duty := some { duty with stream := duty.stream.receive r.1 }, there := r.2 }

/-- One more part of what the server has sent gets to the client. -/
def carryBack? (s : Strand ν) (load : Load) : Option (Strand ν) :=
  match s.duty with
  | none => none
  | some duty =>
    (s.back.next? duty.stream load).map fun r =>
      { s with near := s.near.receive r.1, back := r.2 }

end Strand

/-! ### Calls -/

/-- What calls share. -/
structure Shared (ν : Type) where
  /-- The handler that is installed. -/
  handler : Option (Handler ν)
  /-- The token above those of accepted streams. -/
  token : Token
  pool : Pool
  world : World ν

/-- A call. -/
structure Call (ν : Type) where
  /-- The token of the caller. -/
  caller : Token
  /-- The context of the round trip. -/
  context : Context
  request : Request
  /-- The time at which the call's time is up, and how long that was. -/
  deadline : Option (Nat × Duration)
  /-- What is left of the round trip. -/
  rest : Program (Calling ν) (Except ClientError Response)
  strand : Option (Strand ν)
  ending : Option (Outcome (Except ClientError Response))

/-- What a call does, or what happens to it. -/
inductive Move where
  /-- The next operation of the round trip, if it concerns the surroundings or the stream. -/
  | proceed
  /-- It looks for a connection that is kept. -/
  | look
  /-- The connection that it opens is open, or does not come about. -/
  | dialed (error : Option ClientError)
  | adopt
  /-- It gets a stream with a number. -/
  | opened (id : Nat)
  /-- The round trip has ended, and so does the call. -/
  | finish
  /-- Somebody cancels the caller. -/
  | cancel
  /-- The call is given up, because its time is up. -/
  | timeOut
  /-- The call is given up, because its caller has been cancelled. -/
  | abandon
  /-- The server accepts the stream. -/
  | accept
  | carryThere (load : Load)
  | carryBack (load : Load)
  /-- The next operation of the handler. -/
  | serve
  /-- The handler is let on. -/
  | release
  /-- The server lets go of the stream. -/
  | leave

namespace Move

/-- Whether a move is one of those that get a call its connection. -/
def connects : Move → Bool
  | .look => true
  | .dialed error => error.isNone
  | .adopt => true
  | _ => false

end Move

namespace Call

/-- What the server does with the stream of the call. -/
def duty? (c : Call ν) : Option (Duty ν) := c.strand.bind Strand.duty

/-- The handler that serves the stream of the call, once the server has accepted it. -/
def handler? (c : Call ν) : Option (Handler ν) := c.duty?.bind Duty.handler

/-- Whether the call is opening a connection or has opened one that it has not adopted. -/
def isOpening (c : Call ν) : Bool :=
  match c.rest with
  | .step (.inr (.dial _)) _ => c.ending.isNone
  | .step (.inr (.adopt _ _)) _ => c.ending.isNone
  | _ => false

/-- The call ends, and lets go of its stream. -/
def close (c : Call ν) (s : Shared ν) (ending : Outcome (Except ClientError Response)) :
    Call ν × Shared ν :=
  match c.strand with
  | none => ({ c with ending := some ending }, s)
  | some strand =>
    ({ c with ending := some ending, strand := some { strand with near := strand.near.drop } },
      { s with world := { s.world with tokens := s.world.tokens.cancel strand.near.token } })

/-- The next operation of the round trip, if it concerns the surroundings or the stream. -/
def proceed? (c : Call ν) (s : Shared ν) : Option (Call ν × Shared ν) :=
  match c.rest with
  | .step (.inl op) next =>
    (s.world.answer op).map fun r => ({ c with rest := next r.1 }, { s with world := r.2 })
  | .step (.inr (.onStream _ op)) next =>
    c.strand.bind fun strand =>
      (strand.near.answer? s.world.clock op).map fun r =>
        ({ c with rest := next r.1, strand := some { strand with near := r.2 } }, s)
  | .step (.inr (.collect _ chunk)) next =>
    c.strand.bind fun strand =>
      (strand.near.collect? s.world.clock chunk).map fun r =>
        ({ c with rest := next r.1, strand := some { strand with near := r.2 } }, s)
  | .step (.inr (.sleep _)) next => some ({ c with rest := next () }, s)
  | .step (.inr .yield) next => some ({ c with rest := next () }, s)
  | _ => none

/-- The call looks for a connection that is kept. -/
def look? (c : Call ν) (s : Shared ν) : Option (Call ν × Shared ν) :=
  match c.rest with
  | .step (.inr (.lookup address)) next =>
    some ({ c with rest := next (s.pool.lookup address).1 },
      { s with pool := (s.pool.lookup address).2 })
  | _ => none

/-- The connection that the call opens is open, or does not come about. -/
def dialed? (c : Call ν) (s : Shared ν) (error : Option ClientError) :
    Option (Call ν × Shared ν) :=
  match c.rest with
  | .step (.inr (.dial _)) next =>
    match error with
    | some e => some ({ c with rest := next (.error e) }, s)
    | none =>
      some ({ c with rest := next (.ok s.pool.establish.1) },
        { s with pool := s.pool.establish.2 })
  | _ => none

/-- The call adopts the connection it has opened. -/
def adopt? (c : Call ν) (s : Shared ν) : Option (Call ν × Shared ν) :=
  match c.rest with
  | .step (.inr (.adopt address connection)) next =>
    some ({ c with rest := next (s.pool.adopt address connection).1 },
      { s with pool := (s.pool.adopt address connection).2 })
  | _ => none

/-- The call opens its stream. -/
def open? (c : Call ν) (s : Shared ν) (id : Nat) : Option (Call ν × Shared ν) :=
  match c.rest, c.strand with
  | .step (.inr (.openStream connection)) next, none =>
    if s.pool.isLive connection then
      let r := s.world.tokens.child c.context.token
      some ({ c with rest := next (.ok 0), strand := some (.opened id r.1) },
        { s with world := { s.world with tokens := r.2 } })
    else some ({ c with rest := next (.error (.connection .closedLocally)) }, s)
  | _, _ => none

/-- The call ends with the result of its round trip. -/
def finish? (c : Call ν) (s : Shared ν) : Option (Call ν × Shared ν) :=
  match c.rest with
  | .done result => some (c.close s (.done result))
  | .panic payload => some (c.close s (.panicked payload))
  | .step _ _ => none

/-- Whether the call waits for an answer. What it has just opened it adopts without waiting. -/
def isWaiting (c : Call ν) : Bool :=
  match c.rest with
  | .step (.inr (.adopt _ _)) _ => false
  | .step _ _ => true
  | _ => false

/-- The call is given up if its time is up. -/
def timeOut? (c : Call ν) (s : Shared ν) : Option (Call ν × Shared ν) :=
  match c.deadline with
  | none => none
  | some (time, limit) =>
    if c.isWaiting && decide (time ≤ s.world.clock) then
      some (c.close s (.done (.error (.timeout limit))))
    else none

/-- The call is given up if its caller has been cancelled. -/
def abandon? (c : Call ν) (s : Shared ν) : Option (Call ν × Shared ν) :=
  if c.isWaiting && s.world.tokens.isCancelled c.caller then
    some (c.close s (.done (.error .cancelled)))
  else none

/-- The server accepts the stream and has it served by the handler that is installed. -/
def accept? (c : Call ν) (s : Shared ν) : Option (Call ν × Shared ν) :=
  c.strand.bind fun strand =>
    if strand.duty.isNone then
      let r := s.world.tokens.child s.token
      let duty := Duty.begin s.handler strand.near.id r.1
      some ({ c with strand := some { strand with duty := some duty } },
        { s with world := { s.world with tokens := r.2 } })
    else none

/-- The next operation of the handler. -/
def serve? (c : Call ν) (s : Shared ν) : Option (Call ν × Shared ν) :=
  c.strand.bind fun strand =>
    strand.duty.bind fun duty =>
      (duty.serve? s.world).map fun r =>
        ({ c with strand := some { strand with duty := some r.1 } }, { s with world := r.2 })

/-- The handler is let on. -/
def release? (c : Call ν) : Option (Call ν) :=
  c.strand.bind fun strand =>
    strand.duty.bind fun duty =>
      duty.release?.map fun duty => { c with strand := some { strand with duty := some duty } }

/-- The server lets go of the stream. -/
def leave? (c : Call ν) (s : Shared ν) : Option (Call ν × Shared ν) :=
  c.strand.bind fun strand =>
    strand.duty.bind fun duty =>
      (duty.leave? s.world).map fun r =>
        ({ c with strand := some { strand with duty := some r.1 } }, { s with world := r.2 })

/-- What a call and what is shared are after a move, if it can be made. -/
def move? (c : Call ν) (s : Shared ν) : Move → Option (Call ν × Shared ν)
  | .proceed => if c.ending.isNone then c.proceed? s else none
  | .look => if c.ending.isNone then c.look? s else none
  | .dialed error => if c.ending.isNone then c.dialed? s error else none
  | .adopt => if c.ending.isNone then c.adopt? s else none
  | .opened id => if c.ending.isNone then c.open? s id else none
  | .finish => if c.ending.isNone then c.finish? s else none
  | .timeOut => if c.ending.isNone then c.timeOut? s else none
  | .abandon => if c.ending.isNone then c.abandon? s else none
  | .cancel =>
    some (c, { s with world := { s.world with tokens := s.world.tokens.cancel c.caller } })
  | .accept => c.accept? s
  | .carryThere load =>
    c.strand.bind fun strand =>
      (strand.carryThere? load).map fun strand => ({ c with strand := some strand }, s)
  | .carryBack load =>
    c.strand.bind fun strand =>
      (strand.carryBack? load).map fun strand => ({ c with strand := some strand }, s)
  | .serve => c.serve? s
  | .release => c.release?.map fun c => (c, s)
  | .leave => c.leave? s

end Call

/-! ### The crowd -/

/-- A client, a server, and calls from the one to the other in the order they came. -/
structure Crowd (ν : Type) where
  client : Plan ν
  server : Server.Plan ν
  /-- The address of the server. -/
  address : String
  shared : Shared ν
  calls : List (Call ν)

namespace Crowd

/-- What happens in a crowd. Calls are given by their place. -/
inductive Event (ν : Type) where
  /-- A handler is installed, with the middlewares of the server around it. -/
  | upgrade (handler : Handler ν)
  /-- A caller of its own sends a request. -/
  | come (context : Context) (request : Request)
  /-- Time passes, and others draw random bytes and tokens. -/
  | pass (clock drawn next : Nat)
  | move (call : Nat) (move : Move)

/-- A call that comes. The round trip gets a token below that of the caller. -/
def newCall (c : Crowd ν) (context : Context) (request : Request) : Call ν × Shared ν :=
  let world := c.shared.world
  let caller := world.tokens.root
  let child := caller.2.child caller.1
  let context := context.withToken child.1
  ({ caller := caller.1
     context
     request
     deadline := (timeLimit request).map fun limit => (world.clock + limit.ticks, limit)
     rest := c.client.roundTrip context request
     strand := none
     ending := none },
    { c.shared with world := { world with tokens := child.2 } })

/-- The surroundings once time has passed and others have drawn random bytes and tokens. -/
def passed (w : World ν) (clock drawn next : Nat) : World ν :=
  { w with clock, drawn, tokens := { w.tokens with next } }

/-- What a crowd is after an event, if the event can happen. -/
def step? (c : Crowd ν) : Event ν → Option (Crowd ν)
  | .upgrade handler =>
    some { c with shared := { c.shared with handler := some (c.server.wrap handler) } }
  | .come context request =>
    if request.address = c.address then
      let r := c.newCall context request
      some { c with calls := c.calls ++ [r.1], shared := r.2 }
    else none
  | .pass clock drawn next =>
    let w := c.shared.world
    if w.clock ≤ clock ∧ w.drawn ≤ drawn ∧ w.tokens.next ≤ next then
      some { c with shared := { c.shared with world := passed w clock drawn next } }
    else none
  | .move call move =>
    (c.calls[call]?).bind fun m =>
      (m.move? c.shared move).map fun r =>
        { c with calls := c.calls.set call r.1, shared := r.2 }

/-- What a crowd is after some events, if they can happen one after the other. -/
def run? (c : Crowd ν) : List (Event ν) → Option (Crowd ν)
  | [] => some c
  | event :: rest => (c.step? event).bind fun c => c.run? rest

/-! ### What can be told of a run -/

/-- The handler that an event installs, without middlewares. -/
def Event.upgrade? : Event ν → Option (Handler ν)
  | .upgrade handler => some handler
  | _ => none

/-- The move of a call that an event is, unless it is one of those that get the call its
connection. -/
def Event.moveOf? (call : Nat) : Event ν → Option Move
  | .move n m => if n = call && !m.connects then some m else none
  | _ => none

/-- The handler that is installed after some events: the one that was installed last, with the
middlewares of the server around it. -/
def installed (c : Crowd ν) (events : List (Event ν)) : Option (Handler ν) :=
  ((events.filterMap Event.upgrade?).getLast?.map c.server.wrap).or c.shared.handler

/-- The moves of a call in some events, with their times, but for those that get it its
connection. -/
def schedule (c : Crowd ν) (call : Nat) : List (Event ν) → List (Nat × Move)
  | [] => []
  | event :: rest =>
    (event.moveOf? call).toList.map (fun move => (c.shared.world.clock, move))
      ++ match c.step? event with
        | none => []
        | some c => c.schedule call rest

/-- A crowd in which another handler is installed. -/
def withHandler (c : Crowd ν) (handler : Option (Handler ν)) : Crowd ν :=
  { c with shared := { c.shared with handler } }

end Crowd

end StreamCall.Client
