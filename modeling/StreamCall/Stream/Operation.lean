import StreamCall.Program
import StreamCall.Token
import StreamCall.Error.Envelope
import StreamCall.Envelope.Document

/-!
# Stream operations

What can be asked of a stream, and the programs most often built from it: writing all of a
text, reading an exact number of bytes, and reading and writing a whole document.

`drain` stands for a loop of reads.  It ends with the input, with the wanted number of
bytes, or with a failing read; what the sizes of the single reads are makes no difference.
-/

namespace StreamCall

/-- An operation on a stream. Deadlines are milliseconds of the clock. -/
inductive StreamOp where
  /-- The number of the stream. -/
  | id
  /-- The token that is cancelled when the stream ends. -/
  | token
  /-- One read of at most `n` bytes. -/
  | read (n : Nat)
  /-- Reads until the end, or until the given number of bytes have been read. -/
  | drain (upTo : Option Nat)
  /-- One write. -/
  | write (data : Bytes)
  | flush
  /-- Closes the side that is written. -/
  | shutdown
  /-- Resets the side that is written. -/
  | cancelWrite (code : Nat)
  /-- Stops the side that is read. -/
  | cancelRead (code : Nat)
  | setReadDeadline (deadline : Option Nat)
  | setWriteDeadline (deadline : Option Nat)

/-- How a drain ends. -/
inductive Ending where
  /-- The input has ended. -/
  | finished
  /-- As many bytes as wanted have been read. -/
  | full
  | failed (error : IoError)
deriving DecidableEq, Repr

/-- What a drain has read, and how it ended. -/
structure Drained where
  data : Bytes
  ending : Ending
deriving DecidableEq, Repr

/-- The answer to an operation. -/
def StreamOp.Answer : StreamOp → Type
  | .id => Nat
  | .token => Token
  | .read _ => Except IoError Bytes
  | .drain _ => Drained
  | .write _ => Except IoError Nat
  | .flush => Except IoError Unit
  | .shutdown => Except IoError Unit
  | .cancelWrite _ => Unit
  | .cancelRead _ => Unit
  | .setReadDeadline _ => Unit
  | .setWriteDeadline _ => Unit

/-- The operations on one stream. -/
abbrev Streaming : Signature := ⟨StreamOp, StreamOp.Answer⟩

namespace Stream

/-- A program on a stream. -/
abbrev Use (α : Type) := Program Streaming α

/-- Asks one operation of the stream. -/
def ask (op : StreamOp) : Use op.Answer := Program.perform (S := Streaming) op

/-- The error of input that ends too early. -/
def earlyEnd : IoError := .text .unexpectedEof "early eof"

/-- The error of a write that takes nothing. -/
def noProgress : IoError := .text .writeZero "failed to write whole buffer"

/-- Reads exactly `n` bytes. -/
def readExact (n : Nat) : Use (Except IoError Bytes) :=
  if n = 0 then .done (.ok [])
  else
    .step (.drain (some n)) fun (d : Drained) =>
      match d.ending with
      | .full => .done (.ok d.data)
      | .finished => .done (.error earlyEnd)
      | .failed e => .done (.error e)

/-- Reads to the end. -/
def readToEnd : Use (Except IoError Bytes) :=
  .step (.drain none) fun (d : Drained) =>
    match d.ending with
    | .failed e => .done (.error e)
    | _ => .done (.ok d.data)

/-- Writes what is left of a text. Every write takes at least one byte, so as many writes
suffice as there are bytes. -/
def writeRest : Nat → Bytes → Use (Except IoError Unit)
  | _, [] => .done (.ok ())
  | 0, _ :: _ => .done (.error noProgress)
  | n + 1, b :: rest =>
    .step (.write (b :: rest)) fun (answer : Except IoError Nat) =>
      match answer with
      | .error e => .done (.error e)
      | .ok taken =>
        if taken = 0 then .done (.error noProgress)
        else writeRest n ((b :: rest).drop taken)

/-- Writes all of a text; an empty text does not touch the stream. -/
def writeAll (data : Bytes) : Use (Except IoError Unit) :=
  writeRest data.length data

/-- Reads the envelope that the whole input holds. -/
def readEnvelope (side : Envelope.Side) : Use (Except EnvelopeError Envelope) :=
  readToEnd.bind fun
    | .error e => .done (.error (.read e))
    | .ok data =>
      match Envelope.decode side data with
      | .ok envelope => .done (.ok envelope)
      | .error e =>
        match side with
        | .request => .done (.error (.decodeRequest e))
        | .response => .done (.error (.decodeResponse e))

/-- Writes an envelope and closes the side that is written. -/
def writeEnvelope (envelope : Envelope) : Use (Except EnvelopeError Unit) :=
  (writeAll (Envelope.encode envelope)).bind fun
    | .error e => .done (.error (.write e))
    | .ok _ =>
      .step .shutdown fun (answer : Except IoError Unit) =>
        match answer with
        | .error e => .done (.error (.write e))
        | .ok _ => .done (.ok ())

end Stream

end StreamCall
