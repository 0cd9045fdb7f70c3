import StreamCall.Stream.Operation

/-!
# Streams in memory

A stream whose input is given and whose output is kept.  Its two sides are independent, and
each only moves forward: the input is consumed from the front until it is stopped, and the
output grows until the side is closed or reset.  Deadlines are recorded and have no effect.
-/

namespace StreamCall

/-- The state of the side that is written. -/
inductive WriteSide where
  | opened
  | closed
  | reset (code : Nat)
deriving DecidableEq, Repr

/-- A stream in memory. -/
structure MemoryStream where
  id : Nat
  token : Token
  /-- What has not been read yet. -/
  unread : Bytes
  /-- The code that reading was stopped with. -/
  readStopped : Option Nat
  written : Bytes
  side : WriteSide
  readDeadline : Option Nat
  writeDeadline : Option Nat
deriving DecidableEq, Repr

namespace MemoryStream

/-- A stream with a given input. -/
def ofInput (id : Nat) (token : Token) (input : Bytes) : MemoryStream :=
  { id, token, unread := input, readStopped := none, written := [], side := .opened
    readDeadline := none, writeDeadline := none }

/-- Whether the side that is written has been closed. -/
def isClosed (s : MemoryStream) : Bool := s.side = .closed

/-- The code that the side that is written was reset with. -/
def resetCode? (s : MemoryStream) : Option Nat :=
  match s.side with
  | .reset code => some code
  | _ => none

/-- The error of reading a side that was stopped. -/
def stoppedError (code : Nat) : IoError :=
  .text .connectionReset ("stream read side stopped with code " ++ toString code)

/-- The error of using a side that was reset. -/
def resetError : IoError := .text .brokenPipe "stream write side was reset"

/-- The error of writing to a side that was closed. -/
def closedError : IoError := .text .brokenPipe "stream write side is closed"

/-- Reads at most `n` bytes. -/
def read (s : MemoryStream) (n : Nat) : Except IoError Bytes × MemoryStream :=
  match s.readStopped with
  | some code => (.error (stoppedError code), s)
  | none => (.ok (s.unread.take n), { s with unread := s.unread.drop n })

/-- Reads to the end of the input, or up to a number of bytes. -/
def drain (s : MemoryStream) (upTo : Option Nat) : Drained × MemoryStream :=
  if upTo = some 0 then (⟨[], .full⟩, s)
  else
    match s.readStopped with
    | some code => (⟨[], .failed (stoppedError code)⟩, s)
    | none =>
      match upTo with
      | none => (⟨s.unread, .finished⟩, { s with unread := [] })
      | some n =>
        let data := s.unread.take n
        (⟨data, if data.length < n then .finished else .full⟩,
          { s with unread := s.unread.drop n })

/-- Appends to the output. -/
def write (s : MemoryStream) (data : Bytes) : Except IoError Nat × MemoryStream :=
  match s.side with
  | .opened => (.ok data.length, { s with written := s.written ++ data })
  | .closed => (.error closedError, s)
  | .reset _ => (.error resetError, s)

/-- Closes the side that is written. -/
def shutdown (s : MemoryStream) : Except IoError Unit × MemoryStream :=
  match s.side with
  | .reset _ => (.error resetError, s)
  | _ => (.ok (), { s with side := .closed })

/-- Resets the side that is written, unless it has been closed or reset. -/
def cancelWrite (s : MemoryStream) (code : Nat) : MemoryStream :=
  match s.side with
  | .opened => { s with side := .reset code }
  | _ => s

/-- Stops the side that is read, unless it has been stopped. -/
def cancelRead (s : MemoryStream) (code : Nat) : MemoryStream :=
  { s with readStopped := s.readStopped.or (some code) }

/-- Answers an operation. -/
def answer (s : MemoryStream) : (op : StreamOp) → op.Answer × MemoryStream
  | .id => (s.id, s)
  | .token => (s.token, s)
  | .read n => s.read n
  | .drain upTo => s.drain upTo
  | .write data => s.write data
  | .flush => (.ok (), s)
  | .shutdown => s.shutdown
  | .cancelWrite code => ((), s.cancelWrite code)
  | .cancelRead code => ((), s.cancelRead code)
  | .setReadDeadline deadline => ((), { s with readDeadline := deadline })
  | .setWriteDeadline deadline => ((), { s with writeDeadline := deadline })

end MemoryStream

end StreamCall
