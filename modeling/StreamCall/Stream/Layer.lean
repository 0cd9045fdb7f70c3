import StreamCall.Stream.Operation

/-!
# Layers on a stream

A layer stands between a program and a stream.  A limit lets a number of bytes through and
fails when there are more; a tee keeps what passes.  `Layer.on` says what an operation on
the layered stream does to the stream below, and `onLayers` does so for a stack of layers.
-/

namespace StreamCall

/-- A layer. -/
inductive Layer where
  /-- Lets `limit` bytes of the input through, of which `remaining` are left. -/
  | limited (limit remaining : Nat)
  /-- Keeps the bytes that were read and those that were accepted for writing. -/
  | tee (read written : Bytes)
deriving DecidableEq, Repr

namespace Layer

/-- A limit of which nothing has been used. -/
def limit (n : Nat) : Layer := .limited n n

/-- A tee that has kept nothing. -/
def fresh : Layer := .tee [] []

/-- The error of input beyond a limit. -/
def limitError (limit : Nat) : IoError :=
  .text .invalidData ("request exceeds " ++ toString limit ++ " bytes")

/-- Tells whether the input of a stream has ended, which takes a byte from it if not. -/
def probe (limit : Nat) : Stream.Use (Except IoError Unit) :=
  .step (.read 1) fun (answer : Except IoError Bytes) =>
    match answer with
    | .error e => .done (.error e)
    | .ok [] => .done (.ok ())
    | .ok (_ :: _) => .done (.error (limitError limit))

/-- Reads past the last byte that a limit lets through: `data` has been read, and nothing
more may follow. -/
def beyond (limit : Nat) (data : Bytes) : Stream.Use (Drained × Layer) :=
  (probe limit).bind fun
    | .ok _ => .done (⟨data, .finished⟩, .limited limit 0)
    | .error e => .done (⟨data, .failed e⟩, .limited limit 0)

/-- One read through a limit. -/
def readLimited (limit remaining n : Nat) : Stream.Use (Except IoError Bytes × Layer) :=
  if remaining = 0 then
    (probe limit).bind fun
      | .ok _ => .done (.ok [], .limited limit 0)
      | .error e => .done (.error e, .limited limit 0)
  else
    .step (.read (min n remaining)) fun (answer : Except IoError Bytes) =>
      match answer with
      | .error e => .done (.error e, .limited limit remaining)
      | .ok data => .done (.ok data, .limited limit (remaining - data.length))

/-- A drain through a limit. -/
def drainLimited (limit remaining : Nat) (upTo : Option Nat) :
    Stream.Use (Drained × Layer) :=
  if upTo.any (· ≤ remaining) then
    .step (.drain upTo) fun (d : Drained) =>
      .done (d, .limited limit (remaining - d.data.length))
  else if remaining = 0 then beyond limit []
  else
    .step (.drain (some remaining)) fun (d : Drained) =>
      match d.ending with
      | .full => beyond limit d.data
      | _ => .done (d, .limited limit (remaining - d.data.length))

/-- An operation that passes the layer unseen. -/
def pass (layer : Layer) (op : StreamOp) : Stream.Use (op.Answer × Layer) :=
  (Stream.ask op).bind fun answer => .done (answer, layer)

/-- What an operation on the layered stream does to the stream below. -/
def on : Layer → (op : StreamOp) → Stream.Use (op.Answer × Layer)
  | .limited limit remaining, .read n => readLimited limit remaining n
  | .limited limit remaining, .drain upTo => drainLimited limit remaining upTo
  | .tee read written, .read n =>
    .step (.read n) fun (answer : Except IoError Bytes) =>
      match answer with
      | .error e => .done (.error e, .tee read written)
      | .ok data => .done (.ok data, .tee (read ++ data) written)
  | .tee read written, .drain upTo =>
    .step (.drain upTo) fun (d : Drained) => .done (d, .tee (read ++ d.data) written)
  | .tee read written, .write data =>
    .step (.write data) fun (answer : Except IoError Nat) =>
      match answer with
      | .error e => .done (.error e, .tee read written)
      | .ok taken => .done (.ok taken, .tee read (written ++ data.take taken))
  | layer, op => layer.pass op

end Layer

/-- What an operation on a stream under a stack of layers, the top one first, does to the
stream. The first argument is the number of layers. -/
def onLayers : Nat → List Layer → (op : StreamOp) → Stream.Use (op.Answer × List Layer)
  | n + 1, top :: below, op =>
    (Program.through (onLayers n) below (top.on op)).bind fun ((answer, top), below) =>
      .done (answer, top :: below)
  | _, layers, op => (Stream.ask op).bind fun answer => .done (answer, layers)

end StreamCall
