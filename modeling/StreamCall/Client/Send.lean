import StreamCall.Client.Call

/-!
# Sending

`send` runs the round trip of a request against the clock.  An operation that is not
answered at once suspends the call; then the call is given up if its time is up or the
caller has been cancelled.  What is answered at the very time the call's time is up still
counts.  A caller that is cancelled beforehand sends nothing.
-/

namespace StreamCall.Client

/-- When an operation is answered. Times are milliseconds of the clock. -/
inductive Reply (α : Type) where
  | now (answer : α)
  /-- The call is suspended until a time. -/
  | later (time : Nat) (answer : α)
  | never

/-- What a call is run against: how operations are answered at a time, and whether the caller
has been cancelled. -/
structure Setting (ν σ : Type) where
  answer : Nat → σ → (op : (Calling ν).Op) → Reply ((Calling ν).Answer op) × σ
  isCancelled : σ → Bool

/-- What ends a call from outside. -/
structure Limits where
  /-- The time at which the call's time is up, and how long that was. -/
  deadline : Option (Nat × Duration)
  /-- The time at which somebody else cancels the caller. -/
  cancelAt : Option Nat

/-- How a call ends, the time then, and the state. -/
structure Finish (σ : Type) where
  outcome : Outcome (Except ClientError Response)
  time : Nat
  state : σ

variable {ν σ : Type}

namespace Limits

/-- Why a suspended call is given up at once, if it is. -/
def overdue (l : Limits) (cancelled : Bool) (now : Nat) : Option ClientError :=
  match l.deadline with
  | some (time, limit) =>
    if time ≤ now then some (.timeout limit)
    else if cancelled || l.cancelAt.any (· ≤ now) then some .cancelled else none
  | none => if cancelled || l.cancelAt.any (· ≤ now) then some .cancelled else none

/-- Why a call that is suspended until `wake` is given up before, and when. -/
def before (l : Limits) (wake : Option Nat) : Option (ClientError × Nat) :=
  let timeout :=
    (l.deadline.filter fun d => wake.all (d.1 < ·)).map fun (time, limit) =>
      (ClientError.timeout limit, time)
  match l.cancelAt with
  | some time =>
    let isFirst := wake.all (time ≤ ·) && timeout.all (time ≤ ·.2)
    if isFirst then some (.cancelled, time) else timeout
  | none => timeout

end Limits

/-- Ends a call with an error. -/
def Finish.failed (e : ClientError) (time : Nat) (s : σ) : Finish σ :=
  ⟨.done (.error e), time, s⟩

/-- Runs a round trip from a time on. -/
def race (setting : Setting ν σ) (limits : Limits) (now : Nat) (s : σ) :
    Program (Calling ν) (Except ClientError Response) → Finish σ
  | .done result => ⟨.done result, now, s⟩
  | .panic payload => ⟨.panicked payload, now, s⟩
  | .step op next =>
    match setting.answer now s op with
    | (.now a, s) => race setting limits now s (next a)
    | (.later wake a, s) =>
      match limits.overdue (setting.isCancelled s) now with
      | some e => .failed e now s
      | none =>
        match limits.before (some wake) with
        | some (e, time) => .failed e time s
        | none => race setting limits (max now wake) s (next a)
    | (.never, s) =>
      match limits.overdue (setting.isCancelled s) now with
      | some e => .failed e now s
      | none =>
        match limits.before none with
        | some (e, time) => .failed e time s
        | none => ⟨.waiting, now, s⟩

/-- The time limit of a request; zero is no limit. -/
def timeLimit (request : Request) : Option Duration :=
  request.timeout.filter (·.nanos ≠ 0)

/-- Sends a request at a time. The context is the caller's; the round trip gets one under the
token `child`. -/
def send (setting : Setting ν σ) (cancelAt : Option Nat) (now : Nat) (s : σ)
    (trip : RoundTrip ν) (ctx : Context) (child : Token) (request : Request) : Finish σ :=
  if setting.isCancelled s || cancelAt.any (· ≤ now) then .failed .cancelled now s
  else
    let deadline := (timeLimit request).map fun limit => (now + limit.ticks, limit)
    race setting ⟨deadline, cancelAt⟩ now s (trip (ctx.withToken child) request)

end StreamCall.Client
