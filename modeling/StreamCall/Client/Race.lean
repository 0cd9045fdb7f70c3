import StreamCall.Client.Pool

/-!
# Calls that share a pool

Any number of calls may look for a connection at the same time.  Each looks for one that is
kept, opens one if there is none, and then adopts it; in between, other calls go on, peers
close connections and the client may be closed.  `Race.step?` is one step of one of them.
-/

namespace StreamCall.Client

/-- How far a call is in getting its connection. -/
inductive Progress where
  | looking
  | dialing
  /-- It has opened a connection and has not adopted it yet. -/
  | holding (connection : Nat)
  | got (connection : Nat)
  | failed
deriving DecidableEq, Repr

/-- A call that needs a connection. -/
structure Getter where
  address : String
  progress : Progress
deriving DecidableEq, Repr

/-- A pool and the calls that use it, in the order they came. -/
structure Race where
  pool : Pool
  getters : List Getter
deriving DecidableEq, Repr

namespace Race

/-- A pool that nobody uses. -/
def idle (pool : Pool) : Race := ⟨pool, []⟩

/-- What happens to a pool. Calls are given by their place. -/
inductive Event where
  /-- A call comes that needs a connection to an address. -/
  | come (address : String)
  | look (call : Nat)
  /-- The connection that a call is opening is open. -/
  | connected (call : Nat)
  /-- The connection that a call is opening does not come about. -/
  | refused (call : Nat)
  | adopt (call : Nat)
  /-- The peer of a connection closes it. -/
  | peerCloses (connection : Nat)
  /-- The client is closed. -/
  | shut
deriving DecidableEq, Repr

/-- A call gets further, and the pool changes. -/
def advance (r : Race) (call : Nat) (progress : Progress) (pool : Pool) : Race :=
  { pool, getters := r.getters.modify call fun g => { g with progress } }

/-- What a race is after an event, if the event can happen. -/
def step? (r : Race) : Event → Option Race
  | .come address => some { r with getters := r.getters ++ [⟨address, .looking⟩] }
  | .look call =>
    match r.getters[call]? with
    | some ⟨address, .looking⟩ =>
      match r.pool.lookup address with
      | (some connection, pool) => some (r.advance call (.got connection) pool)
      | (none, pool) => some (r.advance call .dialing pool)
    | _ => none
  | .connected call =>
    match r.getters[call]? with
    | some ⟨_, .dialing⟩ =>
      let (connection, pool) := r.pool.establish
      some (r.advance call (.holding connection) pool)
    | _ => none
  | .refused call =>
    match r.getters[call]? with
    | some ⟨_, .dialing⟩ => some (r.advance call .failed r.pool)
    | _ => none
  | .adopt call =>
    match r.getters[call]? with
    | some ⟨address, .holding fresh⟩ =>
      let (connection, pool) := r.pool.adopt address fresh
      some (r.advance call (.got connection) pool)
    | _ => none
  | .peerCloses connection =>
    if connection < r.pool.dials then some { r with pool := r.pool.close connection } else none
  | .shut => some { r with pool := r.pool.shut }

/-- What a race is after some events, if they can happen one after the other. -/
def run? (r : Race) : List Event → Option Race
  | [] => some r
  | event :: rest => (r.step? event).bind fun r => r.run? rest

end Race

end StreamCall.Client
