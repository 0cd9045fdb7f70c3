import StreamCall.Server.Middleware

/-!
# Middlewares that only call

A `Shell` is a program that may also call a handler, any number of times.  It knows the handler
only by calling it: it gives the call a context and a `Cover`, which says what the operations of
the handler do, and goes on with how the call ends.  `Caller.middleware` makes a middleware of
one.

A `Setting` is a stream in its surroundings, of whatever kind: something that answers operations
from a state.  What is logged and noted is kept beside that state, in a `Scene`.
-/

namespace StreamCall

variable {ν α σ : Type}

/-- The same event in the course of more requests. -/
def Event.under (spans : List RequestId) (e : Event) : Event :=
  { e with spans := spans ++ e.spans }

/-! ### Calls -/

/-- What lies between a handler that is called and the service. -/
structure Cover (ν σ : Type) where
  /-- The number that the handler sees for the number of the stream. -/
  number : Nat → Nat
  /-- The requests in whose course the handler is called, the outermost first. -/
  spans : List RequestId
  /-- What any other operation does. Without an answer the call is left there. -/
  meaning : σ → (op : (Service ν).Op) → Serving ν (Option ((Service ν).Answer op) × σ)

/-- What an operation does under a cover: what is logged and noted gets through. -/
def Cover.on (cover : Cover ν σ) (s : σ) :
    (op : (Service ν).Op) → Serving ν (Option ((Service ν).Answer op) × σ)
  | .inl (.log event) =>
    .step (.inl (.log (event.under cover.spans))) fun (_ : Unit) => .done (some (), s)
  | .inl (.note note) => .step (.inl (.note note)) fun (_ : Unit) => .done (some (), s)
  | .inr .id => .step (.inr .id) fun (number : Nat) => .done (some (cover.number number), s)
  | op => cover.meaning s op

namespace Program

variable {S T : Signature}

/-- As `settle`, but an operation may have no answer; then the program is left waiting. -/
def enclose (meaning : σ → (op : S.Op) → Program T (Option (S.Answer op) × σ)) (s : σ) :
    Program S α → Program T (Outcome α × σ)
  | .done a => .done (.done a, s)
  | .panic q => .done (.panicked q, s)
  | .step op next => (meaning s op).bind fun r =>
    r.1.elim (.done (.waiting, r.2)) fun answer => (next answer).enclose meaning r.2

end Program

/-- A program that may call a handler. -/
inductive Shell (ν α : Type) : Type 1 where
  | done (value : α)
  | panic (payload : Payload)
  | step (op : (Service ν).Op) (next : (Service ν).Answer op → Shell ν α)
  /-- Calls the handler and goes on with how the call ends; a call may be left waiting. -/
  | call {σ : Type} (ctx : Context) (cover : Cover ν σ) (s : σ)
    (next : Outcome (Except HandlerError Unit) → σ → Shell ν α)

/-- The program with a handler to call. -/
def Shell.fill (handler : Handler ν) : Shell ν α → Serving ν α
  | .done a => .done a
  | .panic q => .panic q
  | .step op next => .step op fun answer => (next answer).fill handler
  | .call ctx cover s next =>
    (Program.enclose cover.on s (handler ctx)).bind fun r => (next r.1 r.2).fill handler

/-- Serves a stream with a handler that it may call. -/
abbrev Caller (ν : Type) := Context → Shell ν (Except HandlerError Unit)

/-- A caller put around a handler. -/
def Caller.middleware (caller : Caller ν) : Middleware ν := fun next ctx =>
  (caller ctx).fill next

/-! ### Settings -/

/-- A stream in its surroundings, of whatever kind. -/
structure Setting (ν σ : Type) where
  /-- The number of the stream. -/
  number : σ → Nat
  /-- Answers any other operation than those that log, note and ask for the number. -/
  answer : σ → (op : (Service ν).Op) → Option ((Service ν).Answer op × σ)

/-- The state of a setting, and what has been logged and noted. -/
structure Scene (ν σ : Type) where
  state : σ
  events : List Event
  notes : List ν

namespace Setting

/-- Answers an operation. -/
def reply (setting : Setting ν σ) (s : Scene ν σ) :
    (op : (Service ν).Op) → Option ((Service ν).Answer op × Scene ν σ)
  | .inl (.log event) => some ((), { s with events := s.events ++ [event] })
  | .inl (.note note) => some ((), { s with notes := s.notes ++ [note] })
  | .inr .id => some (setting.number s.state, s)
  | op => (setting.answer s.state op).map fun r => (r.1, { s with state := r.2 })

/-- Runs a program. -/
def run (setting : Setting ν σ) (s : Scene ν σ) (p : Serving ν α) : Outcome α × Scene ν σ :=
  p.run setting.reply s

end Setting

end StreamCall
