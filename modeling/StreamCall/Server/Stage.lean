import StreamCall.Server.Handler
import StreamCall.Stream.Memory

/-!
# Streams in memory and their surroundings

A `Stage` is a stream in memory in a world.  `Stage.serve` runs a handler on it.
-/

namespace StreamCall

/-- A stream in memory in its surroundings. -/
structure Stage (ν : Type) where
  world : World ν
  stream : MemoryStream

namespace Stage

variable {ν α : Type}

/-- A stream with a given input in fresh surroundings. -/
def ofInput (source : Nat → UInt8) (id : Nat) (input : Bytes) : Stage ν :=
  let (token, tokens) := Tokens.empty.root
  { world := { World.fresh source with tokens }, stream := .ofInput id token input }

/-- Answers an operation. -/
def answer (s : Stage ν) : (op : (Service ν).Op) → Option ((Service ν).Answer op × Stage ν)
  | .inl op =>
    match s.world.answer op with
    | none => none
    | some (answer, world) => some (answer, { s with world })
  | .inr op =>
    match s.stream.answer op with
    | (answer, stream) => some (answer, { s with stream })

/-- Runs a program. -/
def run (s : Stage ν) (p : Serving ν α) : Outcome α × Stage ν :=
  p.run answer s

/-- Serves the stream with a handler. -/
def serve (s : Stage ν) (handler : Handler ν) (ctx : Context) :
    Outcome (Except HandlerError Unit) × Stage ν :=
  s.run (handler ctx)

/-- Whether the token of the stream has been cancelled. -/
def isCancelled (s : Stage ν) : Bool :=
  s.world.tokens.isCancelled s.stream.token

end Stage

end StreamCall
