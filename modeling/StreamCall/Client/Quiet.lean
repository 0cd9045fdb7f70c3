import StreamCall.Client.Config
import StreamCall.Client.Pool
import StreamCall.Client.Send

/-!
# A quiet network

A network on which nothing that is sent arrives.  An attempt to open a connection then ends
when the client is closed, when the connection has been idle too long, or when it has taken
too long; no connection is ever opened.
-/

namespace StreamCall.Client

/-- A client on a quiet network: its settings, and when it was closed. -/
structure Quiet where
  config : Config
  closedAt : Option Nat
deriving Inhabited

namespace Quiet

/-- How long three probes of a new connection take, in milliseconds. A connection is not given
up as idle before. -/
def threeProbes : Nat := 2997

/-- How long a connection attempt may be idle, in milliseconds. -/
def idleLimit (q : Quiet) : Nat :=
  max q.config.transport.idleMillis threeProbes

/-- How a connection attempt ends that begins at a time. -/
def dial (q : Quiet) (now : Nat) (address : String) : Reply (Except ClientError Nat) :=
  match dialTarget address with
  | .error e => .now (.error e)
  | .ok _ =>
    if q.closedAt.any (· ≤ now) then .now (.error (.connection .closedLocally))
    else
      let config := q.config.effective
      let late := now + config.dialTimeout.ticks
      let idle := now + q.idleLimit
      if q.closedAt.any fun t => t ≤ idle ∧ t ≤ late then
        .later (q.closedAt.getD now) (.error (.connection .closedLocally))
      else if idle ≤ late then .later idle (.error (.connection .timedOut))
      else .later late (.error (.dialTimeout address config.dialTimeout))

/-- How operations are answered. -/
def answer (q : Quiet) (now : Nat) : (op : CallOp) → Reply op.Answer
  | .sleep span => if span.ticks = 0 then .now () else .later (now + span.ticks) ()
  | .yield => .later now ()
  | .lookup _ => .now none
  | .dial address => q.dial now address
  | .adopt _ connection => .now connection
  | .openStream _ => .never
  | .onStream _ _ => .never
  | .collect _ _ => .never

/-- What a call of the caller with a token is run against. -/
def setting {ν : Type} (q : Quiet) (caller : Token) : Setting ν (World ν) :=
  { answer := fun now w op =>
      match op with
      | .inl op =>
        match w.answer op with
        | some (a, w) => (.now a, w)
        | none => (.never, w)
      | .inr op => (q.answer now op, w)
    isCancelled := fun w => w.tokens.isCancelled caller }

end Quiet

end StreamCall.Client
