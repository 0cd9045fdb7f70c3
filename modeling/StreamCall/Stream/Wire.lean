import StreamCall.Stream.Operation

/-!
# Streams of a connection

A stream of a connection as one of its sides sees it: what has arrived from the peer, and
what has been sent to it.  Each side ends what it sends with a signal: that it is finished,
or that it is reset with a code.  Each side may also ask the other to stop.

An operation waits when its answer depends on what has not arrived yet; with a deadline it
waits until then and fails.  What the network does meanwhile is the `Pace` of the operation: how
much of a write it takes, and how far the signal that a side is finished gets before its sender
stops waiting for it to be acknowledged.
-/

namespace StreamCall

/-- How a side ends what it sends. -/
inductive Signal where
  | finish
  | reset (code : Nat)
deriving DecidableEq, Repr

/-- What the peer does to a stream. -/
inductive PeerEvent where
  | send (fragment : Bytes)
  | signal (signal : Signal)
  /-- It asks to send no more. -/
  | stop (code : Nat)
deriving DecidableEq, Repr

/-- How far the signal has got that a side is finished. -/
inductive Headway where
  /-- It waits behind data. -/
  | queued
  | sent
  /-- The peer has acknowledged it, and all data before it. -/
  | acknowledged
deriving DecidableEq, Repr

/-- How the side of a stream stands that is written. -/
inductive WireSide where
  | open
  /-- It is being closed. -/
  | closing (headway : Headway)
  /-- It has been closed or reset. -/
  | closed
deriving DecidableEq, Repr

/-- What the network does in the course of an operation. -/
structure Pace where
  /-- How many bytes it takes, if not any number. -/
  room : Option Nat
  /-- How far the signal gets that the side is finished. -/
  headway : Headway
deriving DecidableEq, Repr

/-- The network takes all that is written, and everything is acknowledged in time. -/
def Pace.swift : Pace := ⟨none, .acknowledged⟩

/-- One side of a stream of a connection. -/
structure WireStream where
  id : Nat
  token : Token
  /-- What has arrived and has not been read, in the pieces it came in. -/
  arrived : List Bytes
  /-- How the peer has ended what it sends. -/
  ended : Option Signal
  /-- The code that reading was stopped with. -/
  readStopped : Option Nat
  /-- The code with which the peer asked to send no more. -/
  askedToStop : Option Nat
  sent : Bytes
  /-- The signals that were sent, in their order. -/
  signals : List Signal
  side : WireSide
  readDeadline : Option Nat
  writeDeadline : Option Nat
deriving DecidableEq, Repr

namespace WireStream

/-- A stream on which nothing has happened. -/
def fresh (id : Nat) (token : Token) : WireStream :=
  { id, token, arrived := [], ended := none, readStopped := none, askedToStop := none
    sent := [], signals := [], side := .open, readDeadline := none
    writeDeadline := none }

/-! ### The peer -/

/-- What the peer does arrives. After its signal nothing more comes; a reset discards what
has not been read. -/
def receive (s : WireStream) : PeerEvent → WireStream
  | .send fragment =>
    if s.ended.isNone then { s with arrived := s.arrived ++ [fragment] } else s
  | .signal .finish => { s with ended := s.ended.or (some .finish) }
  | .signal (.reset code) =>
    if s.ended.isNone then { s with arrived := [], ended := some (.reset code) } else s
  | .stop code => { s with askedToStop := s.askedToStop.or (some code) }

/-- What the peer sees of this side. -/
def outgoing (s : WireStream) (cut : Bytes → List Bytes) : List PeerEvent :=
  (cut s.sent).map .send ++ s.signals.map .signal

/-! ### Reading -/

/-- The error of an operation whose deadline has passed. -/
def deadlineError : IoError := .text .timedOut "stream deadline exceeded"

/-- Whether a deadline has passed. -/
def hasPassed (now : Nat) (deadline : Option Nat) : Bool := deadline.any (· ≤ now)

/-- Drops bytes from the front of fragments. -/
def dropBytes : Nat → List Bytes → List Bytes
  | _, [] => []
  | n, fragment :: rest =>
    if n < fragment.length then fragment.drop n :: rest
    else dropBytes (n - fragment.length) rest

/-- The answer of a read that finds nothing. -/
def waitToRead (s : WireStream) : Option IoError :=
  s.readDeadline.map fun _ => deadlineError

/-- One read of at most `n` bytes; it gives as much of the next fragment as fits. -/
def read? (now : Nat) (s : WireStream) (n : Nat) :
    Option (Except IoError Bytes × WireStream) :=
  if hasPassed now s.readDeadline then some (.error deadlineError, s)
  else if n = 0 ∨ s.readStopped.isSome then some (.ok [], s)
  else
    match s.ended, s.arrived.dropWhile List.isEmpty with
    | some (.reset code), _ => some (.error (.stream (.reset code)), s)
    | _, fragment :: rest =>
      some (.ok (fragment.take n), { s with arrived := fragment.drop n :: rest })
    | some .finish, [] => some (.ok [], s)
    | none, [] => s.waitToRead.map fun e => (.error e, s)

/-- Reads to the end, or up to a number of bytes. -/
def drain? (now : Nat) (s : WireStream) (upTo : Option Nat) : Option (Drained × WireStream) :=
  if upTo = some 0 then some (⟨[], .full⟩, s)
  else if hasPassed now s.readDeadline then some (⟨[], .failed deadlineError⟩, s)
  else if s.readStopped.isSome then some (⟨[], .finished⟩, s)
  else
    match s.ended with
    | some (.reset code) => some (⟨[], .failed (.stream (.reset code))⟩, s)
    | ended =>
      let all := s.arrived.flatten
      match upTo.filter (· ≤ all.length) with
      | some n => some (⟨all.take n, .full⟩, { s with arrived := dropBytes n s.arrived })
      | none =>
        let s := { s with arrived := [] }
        if ended = some .finish then some (⟨all, .finished⟩, s)
        else s.waitToRead.map fun e => (⟨all, .failed e⟩, s)

/-! ### Writing -/

/-- The error of using a side that has been closed or reset. -/
def closedError : IoError := .stream .unknownStream

/-- Sends data, or as much of it as there is room for. If there is none it waits, or until its
deadline. -/
def write? (now : Nat) (room : Option Nat) (s : WireStream) (data : Bytes) :
    Option (Except IoError Nat × WireStream) :=
  if hasPassed now s.writeDeadline then some (.error deadlineError, s)
  else if s.side ≠ .open then some (.error closedError, s)
  else
    match s.askedToStop with
    | some code => some (.error (.stream (.stopped code)), s)
    | none =>
      let taken := data.take (room.getD data.length)
      if taken.isEmpty && !data.isEmpty then
        s.writeDeadline.map fun _ => (.error deadlineError, s)
      else some (.ok taken.length, { s with sent := s.sent ++ taken })

/-- Queues the signal that the side is finished, if the side is open. -/
def finish (s : WireStream) : WireStream :=
  if s.side = .open then { s with side := .closing .queued } else s

/-- The signal that the side is finished gets on; it is sent once. -/
def advance (s : WireStream) (headway : Headway) : WireStream :=
  match s.side with
  | .closing .queued =>
    if headway = .queued then s
    else { s with side := .closing headway, signals := s.signals ++ [.finish] }
  | .closing .sent =>
    if headway = .acknowledged then { s with side := .closing .acknowledged } else s
  | _ => s

/-- Closes the side that is written: signals that it is finished, and waits until that is
acknowledged, or until its deadline. A side that could not be closed in time is still being
closed. Once it is closed or reset this does nothing. -/
def shutdown? (now : Nat) (headway : Headway) (s : WireStream) :
    Option (Except IoError Unit × WireStream) :=
  if s.side = .closed then some (.ok (), s)
  else if hasPassed now s.writeDeadline then some (.error deadlineError, s)
  else
    match s.askedToStop with
    | some code => some (.error (.stream (.stopped code)), { s with side := .closed })
    | none =>
      let s := s.finish.advance headway
      if s.side = .closing .acknowledged then some (.ok (), { s with side := .closed })
      else s.writeDeadline.map fun _ => (.error deadlineError, s)

/-- Resets the side that is written, unless it is closed or reset. A side that is being closed is
reset too, which comes to nothing once it has been acknowledged that the side is finished. A code
too large to travel is sent as the largest one. -/
def cancelWrite (s : WireStream) (code : Nat) : WireStream :=
  match s.side with
  | .closed => s
  | .closing .acknowledged => { s with side := .closed }
  | _ =>
    { s with side := .closed, signals := s.signals ++ [.reset (Transport.capCode code)] }

/-- Stops the side that is read, unless it has been stopped. -/
def cancelRead (s : WireStream) (code : Nat) : WireStream :=
  { s with readStopped := s.readStopped.or (some (Transport.capCode code)) }

/-- Lets go of the stream: a side that is not closed is reset, so that the peer does not take
what was sent for all there is. -/
def drop (s : WireStream) : WireStream := s.cancelWrite 0

/-- Answers an operation, unless it waits. -/
def answerAt? (pace : Pace) (now : Nat) (s : WireStream) :
    (op : StreamOp) → Option (op.Answer × WireStream)
  | .id => some (s.id, s)
  | .token => some (s.token, s)
  | .read n => s.read? now n
  | .drain upTo => s.drain? now upTo
  | .write data => s.write? now pace.room data
  | .flush => some (.ok (), s)
  | .shutdown => s.shutdown? now pace.headway
  | .cancelWrite code => some ((), s.cancelWrite code)
  | .cancelRead code => some ((), s.cancelRead code)
  | .setReadDeadline deadline => some ((), { s with readDeadline := deadline })
  | .setWriteDeadline deadline => some ((), { s with writeDeadline := deadline })

/-- Answers an operation on a swift network, unless it waits. -/
def answer? (now : Nat) (s : WireStream) (op : StreamOp) : Option (op.Answer × WireStream) :=
  s.answerAt? .swift now op

/-! ### Reading in pieces -/

/-- Reads of at most `chunk` bytes until one gives nothing, behind what has been read; at most
`n` of them. -/
def collectWithin (now chunk : Nat) : Nat → Bytes → WireStream →
    Option (Except IoError Bytes × WireStream)
  | 0, _, _ => none
  | n + 1, data, s =>
    match s.read? now chunk with
    | none => none
    | some (.error e, s) => some (.error e, s)
    | some (.ok [], s) => some (.ok data, s)
    | some (.ok piece, s) => collectWithin now chunk n (data ++ piece) s

/-- Reads to the end by at most `chunk` bytes at once. Every read but the last gives at least
one byte, so one read more than there are bytes suffices. -/
def collect? (now : Nat) (s : WireStream) (chunk : Nat) :
    Option (Except IoError Bytes × WireStream) :=
  collectWithin now chunk (s.arrived.flatten.length + 1) [] s

end WireStream

end StreamCall
