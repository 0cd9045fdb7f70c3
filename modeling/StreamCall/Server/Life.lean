import StreamCall.Server.Lifecycle

/-!
# Shutting a server down

A call that shuts a server down returns once the run that was going on has ended, or when
its own caller gives it up; without a run it returns at once.  `Life.step?` is one event in
the life of a server and of the calls that shut it down.
-/

namespace StreamCall.Server

/-- A call that shuts a server down. -/
structure Closing where
  /-- The run that was going on when it was made. -/
  run : Option Nat
  /-- Whether its caller has given it up. -/
  isCancelled : Bool
  hasReturned : Bool
deriving DecidableEq, Repr

/-- A server and the calls that shut it down, in the order they came. -/
structure Life (η : Type) where
  server : Server η
  closings : List Closing
deriving DecidableEq, Repr

namespace Life

variable {η : Type}

/-- What happens in the life of a server. Calls are given by their place. -/
inductive Event (η : Type) where
  | upgrade (handler : η)
  /-- A run begins at an address. -/
  | start (address : Address)
  /-- A connection is accepted. -/
  | accept
  /-- A connection ends. -/
  | leave (connection : Nat)
  /-- The caller of the run cancels it. -/
  | cancel
  | loseSocket
  /-- The run ends. -/
  | settle
  /-- A call shuts the server down. -/
  | shut
  /-- The caller of a call that shuts the server down gives it up. -/
  | giveUp (call : Nat)
  /-- A call that shuts the server down returns. -/
  | goOn (call : Nat)
deriving DecidableEq, Repr

/-- A server that has never run. -/
def fresh : Life η := ⟨.idle, []⟩

/-- Whether a call that shuts the server down returns. -/
def mayReturn (l : Life η) (c : Closing) : Bool :=
  c.run.isNone || c.isCancelled || l.server.hasEnded

/-- What the life of a server is after an event, if the event can happen. Runs follow one
another. -/
def step? (l : Life η) : Event η → Option (Life η)
  | .upgrade handler => some { l with server := l.server.upgrade handler }
  | .start address =>
    if l.server.run.isSome then none else some { l with server := l.server.start address }
  | .accept => l.server.accept?.map fun r => { l with server := r.2 }
  | .leave connection => some { l with server := l.server.leave connection }
  | .cancel => some { l with server := l.server.cancel }
  | .loseSocket => some { l with server := l.server.loseSocket }
  | .settle =>
    if l.server.run.any Run.isOver then some { l with server := l.server.settle } else none
  | .shut =>
    some
      { server := l.server.shut
        closings := l.closings ++ [⟨l.server.run.map Run.number, false, false⟩] }
  | .giveUp call =>
    some { l with closings := l.closings.modify call fun c => { c with isCancelled := true } }
  | .goOn call =>
    match l.closings[call]? with
    | some c =>
      if l.mayReturn c && !c.hasReturned then
        some { l with closings := l.closings.modify call fun c => { c with hasReturned := true } }
      else none
    | none => none

/-- What the life of a server is after some events, if they can happen one after the
other. -/
def run? (l : Life η) : List (Event η) → Option (Life η)
  | [] => some l
  | event :: rest => (l.step? event).bind fun l => l.run? rest

end Life

end StreamCall.Server
