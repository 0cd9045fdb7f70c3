import StreamCall.Rehearsal.Sample
import StreamCall.Server.Stage

/-!
# Runs on streams in memory

`play` does the actions of a script on a stream in memory, one by one.  `rehearse` serves a
list of calls with one handler, each on a stream of its own.
-/

namespace StreamCall.Rehearsal

/-- What came of an action, the layer that is then on top, if any, and the stage. -/
structure Scene where
  result : Result
  top : Option Layer
  stage : Stage Note

/-- Plays a script action by action; layers that are left in the end are taken away. -/
def play (s : Stage Note) (layers : Layers) : List Action → List Scene × Stage Note
  | [] => ((tops layers).map fun top => ⟨.popped, top, s⟩, s)
  | action :: rest =>
    match s.run (action.act layers) with
    | (.done (result, layers), s) =>
      let (scenes, last) := play s layers rest
      (⟨result, layers.head?, s⟩ :: scenes, last)
    | (_, s) => ([], s)

/-- What the context of a call holds. -/
structure Caller where
  request : Option Request
  requestId : Option RequestId
  bodyLimit : Option Nat
  cancelled : Bool
deriving Inhabited

/-- The context of a call under a token. -/
def Caller.context (c : Caller) (token : Token) : Context :=
  ⟨token, c.request, c.requestId, c.bodyLimit⟩

/-- A call that is served on a stream in memory. -/
structure Run where
  input : Bytes
  caller : Caller
  /-- What is done with the stream before and after it is served. -/
  before : List Action
  after : List Action

/-- What came of a run. -/
structure Report where
  before : List Scene
  after : List Scene
  outcome : Outcome (Except HandlerError Unit)
  stage : Stage Note

/-- Serves one call. -/
def Run.perform (r : Run) (source : Nat → UInt8) (id : Nat) (handler : Handler Note) :
    Report :=
  let s := Stage.ofInput source id r.input
  let (before, s) := play s [] r.before
  let (token, tokens) := s.world.tokens.root
  let tokens := if r.caller.cancelled then tokens.cancel token else tokens
  let s := { s with world := { s.world with tokens } }
  let (outcome, s) := s.serve handler (r.caller.context token)
  let (after, s) := play s [] r.after
  { before, after, outcome, stage := s }

/-- The response that the stream holds in the end. -/
def Report.response? (r : Report) : Option Response :=
  match Envelope.decode .response r.stage.stream.written with
  | .ok envelope => some envelope.response
  | .error _ => none

/-- Serves calls one after the other, the streams being numbered from `id` on. The random
bytes of a call depend on its number. -/
def rehearse (source : Nat → Nat → UInt8) (id : Nat) (handler : Handler Note) :
    List Run → List Report
  | [] => []
  | r :: rest =>
    r.perform (source id) id handler :: rehearse source (id + 1) handler rest

end StreamCall.Rehearsal
