import StreamCall.Client.Send
import StreamCall.Stream.Wire

/-!
# Calls on an open connection

A call on a connection that is open and stays so, with a peer that does what it does without
looking: `upcoming` tells what arrives before each operation of the call on its stream.  The
peer also makes room for what is sent to it, and a write takes no more than there is room for.
An operation that has to wait lets more arrive; a call that waits for more than will arrive
waits for ever.
-/

namespace StreamCall.Client

/-- What reaches the client on its stream. -/
inductive Arrival where
  | event (event : PeerEvent)
  /-- There is room for so many more bytes. -/
  | room (bytes : Nat)
deriving DecidableEq, Repr

/-- The bytes that come with an arrival. -/
def Arrival.data : Arrival → Bytes
  | .event (.send fragment) => fragment
  | _ => []

/-- The stream of a call, and what the peer will do. -/
structure Line where
  stream : WireStream
  /-- How many bytes there is room for. -/
  room : Nat
  /-- What arrives before each of the next operations. -/
  upcoming : List (List Arrival)

namespace Line

/-- Something reaches the client. -/
def receive (l : Line) : Arrival → Line
  | .event event => { l with stream := l.stream.receive event }
  | .room bytes => { l with room := l.room + bytes }

/-- Some arrivals reach the client, and others are still to come. -/
def after (l : Line) (arrivals : List Arrival) (upcoming : List (List Arrival)) : Line :=
  arrivals.foldl receive { l with upcoming }

/-- A write, which takes as much as there is room for. If there is none it waits, or until its
deadline. -/
def write? (now : Nat) (l : Line) (data : Bytes) : Option (Except IoError Nat × Line) :=
  (l.stream.write? now (some l.room) data).map fun (answer, stream) =>
    (answer, { l with stream, room := l.room - (answer.toOption.getD 0) })

/-- Answers an operation on the stream, unless it waits. -/
def answer? (now : Nat) (l : Line) : (op : StreamOp) → Option (op.Answer × Line)
  | .write data => l.write? now data
  | op => (l.stream.answer? now op).map fun r => (r.1, { l with stream := r.2 })

/-- Answers an operation on the stream as soon as it can be, while things arrive. -/
def answerDuring? (now : Nat) (op : StreamOp) :
    List (List Arrival) → Line → Option (op.Answer × Line)
  | [], l => l.answer? now op
  | arrivals :: upcoming, l =>
    let l := l.after arrivals upcoming
    (l.answer? now op).or (answerDuring? now op upcoming l)

/-- Answers an operation on the stream, unless it waits for ever. -/
def await? (now : Nat) (l : Line) (op : StreamOp) : Option (op.Answer × Line) :=
  l.answerDuring? now op l.upcoming

/-- How many bytes are left to read, at most. -/
def unread (l : Line) : Nat :=
  l.stream.arrived.flatten.length + (l.upcoming.flatten.flatMap Arrival.data).length

/-- Reads of at most `chunk` bytes until one gives nothing, behind what has been read; at most
`n` of them. -/
def collectWithin (now chunk : Nat) : Nat → Bytes → Line → Option (Except IoError Bytes × Line)
  | 0, _, _ => none
  | n + 1, data, l =>
    match l.await? now (.read chunk) with
    | none => none
    | some (.error e, l) => some (.error e, l)
    | some (.ok [], l) => some (.ok data, l)
    | some (.ok piece, l) => collectWithin now chunk n (data ++ piece) l

/-- Reads to the end by at most `chunk` bytes at once. Every read but the last gives at least
one byte, so one read more than there are bytes suffices. -/
def collect? (now : Nat) (l : Line) (chunk : Nat) : Option (Except IoError Bytes × Line) :=
  collectWithin now chunk (l.unread + 1) [] l

/-- The reply to an operation that is answered or waits for ever. -/
def replied {α : Type} (l : Line) : Option (α × Line) → Reply α × Line
  | some (answer, l) => (.now answer, l)
  | none => (.never, l)

/-- Answers an operation. -/
def answer (now : Nat) (l : Line) : (op : CallOp) → Reply op.Answer × Line
  | .sleep span => (if span.ticks = 0 then .now () else .later (now + span.ticks) (), l)
  | .yield => (.later now (), l)
  | .lookup _ => (.now (some 0), l)
  | .dial _ => (.now (.ok 0), l)
  | .adopt _ connection => (.now connection, l)
  | .openStream _ => (.now (.ok l.stream.id), l)
  | .onStream _ op => l.replied (l.await? now op)
  | .collect _ chunk => l.replied (l.collect? now chunk)

/-- What a call of the caller with a token is run against. -/
def setting {ν : Type} (caller : Token) : Setting ν (World ν × Line) :=
  { answer := fun now (w, l) op =>
      match op with
      | .inl op =>
        match w.answer op with
        | some (answer, w) => (.now answer, w, l)
        | none => (.never, w, l)
      | .inr op =>
        match l.answer now op with
        | (reply, l) => (reply, w, l)
    isCancelled := fun (w, _) => w.tokens.isCancelled caller }

end Line

end StreamCall.Client
