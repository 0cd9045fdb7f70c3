import StreamCall.Server.Handler

/-!
# Scripts

A script is a list of actions on a stream and on the layers that are put on it meanwhile.
`Action.act` does one of them and says what came of it; `perform` does all and keeps a
record of each, together with the layer that is then on top.
-/

namespace StreamCall.Rehearsal

/-- A time, in milliseconds of the clock or from now. -/
inductive Moment where
  | ofClock (ms : Nat)
  | fromNow (ms : Nat)
deriving DecidableEq, Repr

/-- An action on the stream or on its layers. -/
inductive Action where
  | read (n : Nat)
  | readExact (n : Nat)
  | readToEnd
  | write (data : Bytes)
  | writeAll (data : Bytes)
  | flush
  | shutdown
  | cancelWrite (code : Nat)
  | cancelRead (code : Nat)
  | cancelToken
  /-- Asks whether the token of the stream has been cancelled. -/
  | askToken
  /-- Asks for the number of the stream. -/
  | askNumber
  | setReadDeadline (moment : Option Moment)
  | setWriteDeadline (moment : Option Moment)
  | setDeadline (moment : Option Moment)
  | readEnvelope (side : Envelope.Side)
  | writeEnvelope (envelope : Envelope)
  /-- Puts a layer on top. -/
  | push (layer : Layer)
  /-- Takes the top layer away. -/
  | pop

/-- What came of an action. -/
inductive Result where
  | ok
  | pushed
  | popped
  | data (bytes : Bytes)
  | taken (n : Nat)
  | number (n : Nat)
  | cancelled (yes : Bool)
  | envelope (side : Envelope.Side) (envelope : Envelope)
  | ioError (error : IoError)
  | envelopeError (error : EnvelopeError)

/-- Whether an action failed. -/
def Result.isError : Result → Bool
  | .ioError _ => true
  | .envelopeError _ => true
  | _ => false

/-- What came of an action, and the layer that is then on top, if any. -/
structure Record where
  result : Result
  top : Option Layer

variable {ν α : Type}

/-- Layers on the stream, the top one first. -/
abbrev Layers := List Layer

/-- Runs a program on the stream under some layers. -/
def onTop (layers : Layers) (p : Stream.Use α) : Serving ν (α × Layers) :=
  Serving.onStream (p.through (onLayers layers.length) layers)

/-- What came of an operation that can fail. -/
def Result.ofIo (value : α → Result) : Except IoError α → Result
  | .ok a => value a
  | .error e => .ioError e

/-- What came of moving an envelope. -/
def Result.ofEnvelope (value : α → Result) : Except EnvelopeError α → Result
  | .ok a => value a
  | .error e => .envelopeError e

/-- Runs a program under some layers and says what came of it. -/
def report (layers : Layers) (p : Stream.Use α) (result : α → Result) :
    Serving ν (Result × Layers) :=
  (onTop layers p).bind fun (a, layers) => .done (result a, layers)

/-- The time of a moment. -/
def resolve : Option Moment → Serving ν (Option Nat)
  | none => .done none
  | some (.ofClock ms) => .done (some ms)
  | some (.fromNow ms) => .step (.inl .now) fun (now : Nat) => .done (some (now + ms))

/-- Does an action. -/
def Action.act (layers : Layers) : Action → Serving ν (Result × Layers)
  | .read n => report layers (Stream.ask (.read n)) (Result.ofIo .data)
  | .readExact n => report layers (Stream.readExact n) (Result.ofIo .data)
  | .readToEnd => report layers Stream.readToEnd (Result.ofIo .data)
  | .write data => report layers (Stream.ask (.write data)) (Result.ofIo .taken)
  | .writeAll data => report layers (Stream.writeAll data) (Result.ofIo fun _ => .ok)
  | .flush => report layers (Stream.ask .flush) (Result.ofIo fun _ => .ok)
  | .shutdown => report layers (Stream.ask .shutdown) (Result.ofIo fun _ => .ok)
  | .cancelWrite code => report layers (Stream.ask (.cancelWrite code)) fun _ => .ok
  | .cancelRead code => report layers (Stream.ask (.cancelRead code)) fun _ => .ok
  | .cancelToken =>
    (onTop layers (Stream.ask .token)).bind fun (token, layers) =>
      .step (.inl (.cancel token)) fun (_ : Unit) => .done (.ok, layers)
  | .askToken =>
    (onTop layers (Stream.ask .token)).bind fun (token, layers) =>
      .step (.inl (.isCancelled token)) fun (yes : Bool) => .done (.cancelled yes, layers)
  | .askNumber => report layers (Stream.ask .id) .number
  | .setReadDeadline moment =>
    (resolve moment).bind fun deadline =>
      report layers (Stream.ask (.setReadDeadline deadline)) fun _ => .ok
  | .setWriteDeadline moment =>
    (resolve moment).bind fun deadline =>
      report layers (Stream.ask (.setWriteDeadline deadline)) fun _ => .ok
  | .setDeadline moment =>
    (resolve moment).bind fun deadline =>
      (onTop layers (Stream.ask (.setReadDeadline deadline))).bind fun (_, layers) =>
        report layers (Stream.ask (.setWriteDeadline deadline)) fun _ => .ok
  | .readEnvelope side =>
    report layers (Stream.readEnvelope side) (Result.ofEnvelope (.envelope side))
  | .writeEnvelope envelope =>
    report layers (Stream.writeEnvelope envelope) (Result.ofEnvelope fun _ => .ok)
  | .push layer => .done (.pushed, layer :: layers)
  | .pop => .done (.popped, layers.tail)

/-- What is on top each time one of the layers is taken away. -/
def tops : Layers → List (Option Layer)
  | [] => []
  | _ :: below => below.head? :: tops below

/-- Does the actions of a script in turn; layers that are left in the end are taken away. -/
def perform (layers : Layers) : List Action → Serving ν (List Record)
  | [] => .done ((tops layers).map fun top => ⟨.popped, top⟩)
  | action :: rest =>
    (action.act layers).bind fun (result, layers) =>
      (perform layers rest).bind fun records => .done (⟨result, layers.head?⟩ :: records)

end StreamCall.Rehearsal
