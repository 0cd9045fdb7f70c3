import StreamCall.Event
import StreamCall.Program
import StreamCall.Token

/-!
# Surroundings

What a program can ask of its surroundings apart from streams: the log, the clock, random
bytes, the state of tokens.  It can also leave notes for an observer, whose type `ν` is left
open.  A `World` answers all of this; in a world where nothing else goes on a program that
pauses never goes on.
-/

namespace StreamCall

/-- An operation on the surroundings. -/
inductive AmbientOp (ν : Type) where
  | log (event : Event)
  | note (note : ν)
  /-- Draws `n` random bytes. -/
  | random (n : Nat)
  /-- The time in milliseconds. -/
  | now
  | isCancelled (token : Token)
  | cancel (token : Token)
  /-- Makes a fresh token below another. -/
  | branch (token : Token)
  /-- Waits to be let on. -/
  | pause
  /-- Waits for ever. -/
  | hang

/-- The answer to an operation. -/
def AmbientOp.Answer {ν : Type} : AmbientOp ν → Type
  | .log _ => Unit
  | .note _ => Unit
  | .random _ => Bytes
  | .now => Nat
  | .isCancelled _ => Bool
  | .cancel _ => Unit
  | .branch _ => Token
  | .pause => Unit
  | .hang => Empty

/-- The operations on the surroundings. -/
abbrev Ambient (ν : Type) : Signature := ⟨AmbientOp ν, AmbientOp.Answer⟩

/-- Surroundings in which nothing else goes on. -/
structure World (ν : Type) where
  tokens : Tokens
  /-- The events that were logged, in their order. -/
  events : List Event
  /-- The notes that were left, in their order. -/
  notes : List ν
  /-- The random bytes; those below `drawn` have been given out. -/
  source : Nat → UInt8
  drawn : Nat
  clock : Nat

namespace World

variable {ν : Type}

/-- Surroundings in which nothing has happened. -/
def fresh (source : Nat → UInt8) : World ν :=
  { tokens := .empty, events := [], notes := [], source, drawn := 0, clock := 0 }

/-- Draws random bytes. -/
def random (w : World ν) (n : Nat) : Bytes × World ν :=
  ((List.range n).map fun i => w.source (w.drawn + i), { w with drawn := w.drawn + n })

/-- Answers an operation. -/
def answer (w : World ν) : (op : AmbientOp ν) → Option (op.Answer × World ν)
  | .log event => some ((), { w with events := w.events ++ [event] })
  | .note note => some ((), { w with notes := w.notes ++ [note] })
  | .random n => some (w.random n)
  | .now => some (w.clock, w)
  | .isCancelled token => some (w.tokens.isCancelled token, w)
  | .cancel token => some ((), { w with tokens := w.tokens.cancel token })
  | .branch token =>
    let (token, tokens) := w.tokens.child token
    some (token, { w with tokens })
  | .pause => none
  | .hang => none

end World

/-- A fresh id for a request. -/
def RequestId.generate {ν : Type} : Program (Ambient ν) RequestId :=
  .step (.random 16) fun (bytes : Bytes) => .done (.ofRandom bytes)

end StreamCall
