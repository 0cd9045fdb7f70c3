import StreamCall.Client.Crowd
import StreamCall.Proofs.Client.Locality
import StreamCall.Proofs.Client.Race

/-!
# What happens in a crowd

A round trip under way is local and has come to some point in getting its connection (`Underway`).
What its call can do then, as long as the pool is that of a client that is not closed
(`Pool.Serves`), is `Call.Step`, one rule for each case (`Call.step_of_move?`).
-/

namespace StreamCall.Client

variable {ν α : Type}

/-! ### Round trips under way -/

/-- Whether a program is what is left of a local round trip. -/
inductive Underway (t : Token) (address : String) : Program (Calling ν) α → Prop where
  | departing {p : Program (Calling ν) α} (h : Departs t address p) : Underway t address p
  | dialing {f : ClientError → Program (Calling ν) α}
    {k : Except ClientError Nat → Program (Calling ν) α} (hf : Settles t f) (hk : Settles t k) :
    Underway t address (dialing address f k)
  | holding {k : Except ClientError Nat → Program (Calling ν) α} (hk : Settles t k)
    (connection : Nat) : Underway t address (holding address k connection)
  | asking {k : Except ClientError Nat → Program (Calling ν) α} (hk : Settles t k)
    (connection : Nat) : Underway t address (asking k connection)

namespace Underway

variable {t : Token} {address : String}

theorem settled {p : Program (Calling ν) α} (h : IsSettled t p) :
  Underway t address p
  :=
  .departing (.settled h)

theorem of_surroundings
    {op : AmbientOp ν} {next : op.Answer → Program (Calling ν) α}
    (h : Underway t address (.step (.inl op) next)) :
  op.IsBelow t ∧ ∀ answer, op.Tells answer → Departs t address (next answer)
  := by
  generalize hp : (.step (.inl op) next : Program (Calling ν) α) = p at h
  cases h with
  | departing h =>
    cases h with
    | settled h =>
      subst hp
      exact ⟨h.1, fun answer htold => .settled (h.2 answer htold)⟩
    | preparing allowed departs =>
      cases hp
      exact ⟨allowed, departs⟩
    | looking => cases hp
  | dialing | holding | asking => cases hp

/-- What uses the network is settled, or is at one of the points in getting a connection. -/
theorem network_cases
    {op : CallOp} {next : op.Answer → Program (Calling ν) α}
    (h : Underway t address (.step (.inr op) next)) :
  ((settledAt (ν := ν) t).allows (.inr op) ∧ Settles t next)
    ∨ (∃ f k, Settles t f ∧ Settles t k ∧ .step (.inr op) next = looking address f k)
    ∨ (∃ f k, Settles t f ∧ Settles t k ∧ .step (.inr op) next = Client.dialing address f k)
    ∨ (∃ k connection, Settles t k ∧ .step (.inr op) next = Client.holding address k connection)
    ∨ ∃ k connection, Settles t k ∧ .step (.inr op) next = Client.asking k connection
  := by
  generalize hp : (.step (.inr op) next : Program (Calling ν) α) = p at h
  cases h with
  | departing h =>
    cases h with
    | settled h =>
      subst hp
      exact .inl ⟨h.1, fun answer => h.2 answer trivial⟩
    | preparing => cases hp
    | looking hf hk => exact .inr (.inl ⟨_, _, hf, hk, rfl⟩)
  | dialing hf hk => exact .inr (.inr (.inl ⟨_, _, hf, hk, rfl⟩))
  | holding hk connection => exact .inr (.inr (.inr (.inl ⟨_, connection, hk, rfl⟩)))
  | asking hk connection => exact .inr (.inr (.inr (.inr ⟨_, connection, hk, rfl⟩)))

/-- What uses a stream, or lets others go on, is settled. -/
theorem of_network
    {op : CallOp} {next : op.Answer → Program (Calling ν) α}
    (h : Underway t address (.step (.inr op) next))
    (hop : (settledAt (ν := ν) t).allows (.inr op)) :
  Settles t next
  := by
  obtain ⟨-, hnext⟩ | ⟨_, _, -, -, heq⟩ | ⟨_, _, -, -, heq⟩ | ⟨_, _, -, heq⟩ | ⟨_, _, -, heq⟩ :=
    h.network_cases
  · exact hnext
  all_goals
    cases heq
    cases hop

theorem of_lookup
    {asked : String} {next : Option Nat → Program (Calling ν) α}
    (h : Underway t address (.step (.inr (.lookup asked)) next)) :
  ∃ f k, Settles t f ∧ Settles t k
    ∧ (.step (.inr (.lookup asked)) next : Program (Calling ν) α) = looking address f k
  := by
  obtain ⟨hop, -⟩ | hlooking | ⟨_, _, -, -, heq⟩ | ⟨_, _, -, heq⟩ | ⟨_, _, -, heq⟩ :=
    h.network_cases
  · cases hop
  · exact hlooking
  all_goals cases heq

theorem of_dial
    {asked : String} {next : Except ClientError Nat → Program (Calling ν) α}
    (h : Underway t address (.step (.inr (.dial asked)) next)) :
  ∃ f k, Settles t f ∧ Settles t k
    ∧ (.step (.inr (.dial asked)) next : Program (Calling ν) α) = Client.dialing address f k
  := by
  obtain ⟨hop, -⟩ | ⟨_, _, -, -, heq⟩ | hdialing | ⟨_, _, -, heq⟩ | ⟨_, _, -, heq⟩ :=
    h.network_cases
  · cases hop
  · cases heq
  · exact hdialing
  all_goals cases heq

theorem of_adopt
    {asked : String} {connection : Nat} {next : Nat → Program (Calling ν) α}
    (h : Underway t address (.step (.inr (.adopt asked connection)) next)) :
  ∃ k, Settles t k ∧ (.step (.inr (.adopt asked connection)) next : Program (Calling ν) α)
    = Client.holding address k connection
  := by
  obtain ⟨hop, -⟩ | ⟨_, _, -, -, heq⟩ | ⟨_, _, -, -, heq⟩ | ⟨k, _, hk, heq⟩ | ⟨_, _, -, heq⟩ :=
    h.network_cases
  · cases hop
  · cases heq
  · cases heq
  · cases heq
    exact ⟨k, hk, rfl⟩
  · cases heq

theorem of_openStream
    {connection : Nat} {k : Except ClientError Nat → Program (Calling ν) α}
    (h : Underway t address (.step (.inr (.openStream connection)) k)) :
  Settles t k
  := by
  obtain ⟨-, hk⟩ | ⟨_, _, -, -, heq⟩ | ⟨_, _, -, -, heq⟩ | ⟨_, _, -, heq⟩ | ⟨_, _, hk, heq⟩ :=
    h.network_cases
  · exact hk
  · cases heq
  · cases heq
  · cases heq
  · cases heq
    exact hk

section

variable {f : ClientError → Program (Calling ν) α}
  {k : Except ClientError Nat → Program (Calling ν) α}

theorem of_looking (h : Underway t address (Client.looking address f k)) :
  Settles t f ∧ Settles t k
  := by
  obtain ⟨f', k', hf, hk, hlooking⟩ := of_lookup h
  obtain ⟨rfl, rfl⟩ := looking_inj hlooking
  exact ⟨hf, hk⟩

theorem of_dialing (h : Underway t address (Client.dialing address f k)) :
  Settles t f ∧ Settles t k
  := by
  obtain ⟨f', k', hf, hk, hdialing⟩ := of_dial h
  obtain ⟨rfl, rfl⟩ := dialing_inj hdialing
  exact ⟨hf, hk⟩

theorem of_holding
    {connection : Nat} (h : Underway t address (Client.holding address k connection)) :
  Settles t k
  := by
  obtain ⟨k', hk, hholding⟩ := of_adopt h
  obtain ⟨-, rfl⟩ := holding_inj hholding
  exact hk

end

end Underway

/-! ### The pool of a client that is not closed -/

/-- Whether a pool is that of a client that is not closed, and what is kept for an address is
alive. -/
structure Pool.Serves (p : Pool) (address : String) : Prop where
  not_shut : p.isShut = false
  closed_lt : ∀ c ∈ p.closed, c < p.dials
  kept_lt : ∀ c ∈ p.get? address, c < p.dials
  kept_live : ∀ c ∈ p.get? address, p.isLive c = true

namespace Pool.Serves

variable {p : Pool} {address : String}

theorem lookup_eq (h : p.Serves address) :
  p.lookup address = (p.get? address, p)
  := by
  rw [Pool.lookup]
  cases hkept : p.get? address with
  | none => rfl
  | some c => exact if_pos (h.kept_live c hkept)

theorem establish_eq (h : p.Serves address) :
  p.establish = (p.dials, { p with dials := p.dials + 1 })
  := by
  rw [Pool.establish, h.not_shut]
  rfl

theorem adopt_of_none {c : Nat} (hbare : p.get? address = none) :
  p.adopt address c = (c, { p with kept := (address, c) :: p.kept })
  := by
  rw [Pool.adopt, hbare]

theorem adopt_of_some (h : p.Serves address) {c other : Nat} (hkept : p.get? address = some other) :
  p.adopt address c = (other, p.close c)
  := by
  rw [Pool.adopt, hkept]
  exact if_pos (h.kept_live other hkept)

end Pool.Serves

/-! ### What a call can do -/

namespace Call

/-- What a call to an address can do, and what can happen to it. -/
inductive Step (address : String) (c : Call ν) (s : Shared ν) :
    Move → Call ν → Shared ν → Prop where
  | prepares {op : AmbientOp ν} {next : op.Answer → Program (Calling ν) _} {answer : op.Answer}
    {world : World ν} (going : c.ending = none) (rest : c.rest = .step (.inl op) next)
    (answered : s.world.answer op = some (answer, world)) :
    Step address c s .proceed { c with rest := next answer } { s with world }
  | exchanges {n : Nat} {op : StreamOp} {next : op.Answer → Program (Calling ν) _}
    {strand : Strand ν} {answer : op.Answer} {near : WireStream} (going : c.ending = none)
    (rest : c.rest = .step (.inr (.onStream n op)) next) (opened : c.strand = some strand)
    (answered : strand.near.answer? s.world.clock op = some (answer, near)) :
    Step address c s .proceed
      { c with rest := next answer, strand := some { strand with near } } s
  | collects {n chunk : Nat} {next : Except IoError Bytes → Program (Calling ν) _}
    {strand : Strand ν} {answer : Except IoError Bytes} {near : WireStream}
    (going : c.ending = none) (rest : c.rest = .step (.inr (.collect n chunk)) next)
    (opened : c.strand = some strand)
    (answered : strand.near.collect? s.world.clock chunk = some (answer, near)) :
    Step address c s .proceed
      { c with rest := next answer, strand := some { strand with near } } s
  | sleeps {span : Duration} {next : Unit → Program (Calling ν) _} (going : c.ending = none)
    (rest : c.rest = .step (.inr (.sleep span)) next) :
    Step address c s .proceed { c with rest := next () } s
  | rests {next : Unit → Program (Calling ν) _} (going : c.ending = none)
    (rest : c.rest = .step (.inr .yield) next) :
    Step address c s .proceed { c with rest := next () } s
  /-- A connection is kept. -/
  | finds {f k} {connection : Nat} (going : c.ending = none) (rest : c.rest = looking address f k)
    (kept : s.pool.get? address = some connection) :
    Step address c s .look { c with rest := asking k connection } s
  /-- No connection is kept. -/
  | misses {f k} (going : c.ending = none) (rest : c.rest = looking address f k)
    (bare : s.pool.get? address = none) :
    Step address c s .look { c with rest := dialing address f k } s
  | fails {f k} {e : ClientError} (going : c.ending = none)
    (rest : c.rest = dialing address f k) :
    Step address c s (.dialed (some e)) { c with rest := f e } s
  | connects {f k} (going : c.ending = none) (rest : c.rest = dialing address f k) :
    Step address c s (.dialed none) { c with rest := holding address k s.pool.dials }
      { s with pool := { s.pool with dials := s.pool.dials + 1 } }
  /-- Nothing is kept, and the new connection is. -/
  | adopts {k} {connection : Nat} (going : c.ending = none)
    (rest : c.rest = holding address k connection) (bare : s.pool.get? address = none) :
    Step address c s .adopt { c with rest := asking k connection }
      { s with pool := { s.pool with kept := (address, connection) :: s.pool.kept } }
  /-- A connection is kept, and the new one is closed. -/
  | yields {k} {connection other : Nat} (going : c.ending = none)
    (rest : c.rest = holding address k connection) (kept : s.pool.get? address = some other) :
    Step address c s .adopt { c with rest := asking k other }
      { s with pool := s.pool.close connection }
  | opens {k} {connection : Nat} (going : c.ending = none) (rest : c.rest = asking k connection)
    (bare : c.strand = none) (live : s.pool.isLive connection = true) (id : Nat) :
    Step address c s (.opened id)
      { c with
        rest := k (.ok 0)
        strand := some (.opened id (s.world.tokens.child c.context.token).1) }
      { s with
        world := { s.world with tokens := (s.world.tokens.child c.context.token).2 } }
  | strays {k} {connection : Nat} (going : c.ending = none)
    (rest : c.rest = asking k connection) (bare : c.strand = none)
    (dead : s.pool.isLive connection = false) (id : Nat) :
    Step address c s (.opened id)
      { c with rest := k (.error (.connection .closedLocally)) } s
  | finishes {result : Except ClientError Response} (going : c.ending = none)
    (rest : c.rest = .done result) :
    Step address c s .finish (c.close s (.done result)).1 (c.close s (.done result)).2
  | panics {payload : Payload} (going : c.ending = none) (rest : c.rest = .panic payload) :
    Step address c s .finish (c.close s (.panicked payload)).1 (c.close s (.panicked payload)).2
  | timesOut {time : Nat} {limit : Duration} (going : c.ending = none)
    (deadline : c.deadline = some (time, limit)) (waiting : c.isWaiting = true)
    (due : time ≤ s.world.clock) :
    Step address c s .timeOut (c.close s (.done (.error (.timeout limit)))).1
      (c.close s (.done (.error (.timeout limit)))).2
  | abandons (going : c.ending = none) (waiting : c.isWaiting = true)
    (cancelled : s.world.tokens.isCancelled c.caller = true) :
    Step address c s .abandon (c.close s (.done (.error .cancelled))).1
      (c.close s (.done (.error .cancelled))).2
  | cancelled :
    Step address c s .cancel c
      { s with world := { s.world with tokens := s.world.tokens.cancel c.caller } }
  | accepted {strand : Strand ν} (opened : c.strand = some strand) (fresh : strand.duty = none) :
    Step address c s .accept
      { c with
        strand := some
          { strand with
            duty := some
              (.begin s.handler strand.near.id (s.world.tokens.child s.token).1) } }
      { s with world := { s.world with tokens := (s.world.tokens.child s.token).2 } }
  | carriedThere {load : Load} {strand strand' : Strand ν} (opened : c.strand = some strand)
    (carried : strand.carryThere? load = some strand') :
    Step address c s (.carryThere load) { c with strand := some strand' } s
  | carriedBack {load : Load} {strand strand' : Strand ν} (opened : c.strand = some strand)
    (carried : strand.carryBack? load = some strand') :
    Step address c s (.carryBack load) { c with strand := some strand' } s
  | serves {strand : Strand ν} {duty duty' : Duty ν} {world : World ν}
    (opened : c.strand = some strand) (accepted : strand.duty = some duty)
    (served : duty.serve? s.world = some (duty', world)) :
    Step address c s .serve { c with strand := some { strand with duty := some duty' } }
      { s with world }
  | releases {strand : Strand ν} {duty duty' : Duty ν} (opened : c.strand = some strand)
    (accepted : strand.duty = some duty) (released : duty.release? = some duty') :
    Step address c s .release { c with strand := some { strand with duty := some duty' } } s
  | leaves {strand : Strand ν} {duty duty' : Duty ν} {world : World ν}
    (opened : c.strand = some strand) (accepted : strand.duty = some duty)
    (left : duty.leave? s.world = some (duty', world)) :
    Step address c s .leave { c with strand := some { strand with duty := some duty' } }
      { s with world }

section

variable {address : String} {c : Call ν} {s : Shared ν} {r : Call ν × Shared ν}

theorem step_of_proceed (going : c.ending = none) (h : c.proceed? s = some r) :
  Step address c s .proceed r.1 r.2
  := by
  rw [proceed?] at h
  split at h
  · next op next rest =>
    obtain ⟨⟨answer, world⟩, answered, heq⟩ := Option.map_eq_some_iff.mp h
    cases heq
    exact .prepares going rest answered
  · next n op next rest =>
    obtain ⟨strand, opened, h⟩ := Option.bind_eq_some_iff.mp h
    obtain ⟨⟨answer, near⟩, answered, heq⟩ := Option.map_eq_some_iff.mp h
    cases heq
    exact .exchanges going rest opened answered
  · next n chunk next rest =>
    obtain ⟨strand, opened, h⟩ := Option.bind_eq_some_iff.mp h
    obtain ⟨⟨answer, near⟩, answered, heq⟩ := Option.map_eq_some_iff.mp h
    cases heq
    exact .collects going rest opened answered
  · next span next rest =>
    cases h
    exact .sleeps going rest
  · next next rest =>
    cases h
    exact .rests going rest
  · cases h

theorem step_of_look
    (hrest : Underway c.context.token address c.rest) (hpool : s.pool.Serves address)
    (going : c.ending = none) (h : c.look? s = some r) :
  Step address c s .look r.1 r.2
  := by
  rw [look?] at h
  split at h
  · next asked next rest =>
    rw [rest] at hrest
    -- There is no other look-up in a local round trip, so the address is the one of the call.
    obtain ⟨f, k, -, -, hlooking⟩ := hrest.of_lookup
    rw [hlooking] at rest
    cases hlooking
    rw [hpool.lookup_eq] at h
    cases hkept : s.pool.get? address with
    | none =>
      rw [hkept] at h
      cases h
      exact .misses going rest hkept
    | some connection =>
      rw [hkept] at h
      cases h
      exact .finds going rest hkept
  · cases h

theorem step_of_dialed
    (hrest : Underway c.context.token address c.rest) (hpool : s.pool.Serves address)
    (going : c.ending = none) {error : Option ClientError}
    (h : c.dialed? s error = some r) :
  Step address c s (.dialed error) r.1 r.2
  := by
  rw [dialed?] at h
  split at h
  · next asked next rest =>
    rw [rest] at hrest
    obtain ⟨f, k, -, -, hdialing⟩ := hrest.of_dial
    rw [hdialing] at rest
    cases hdialing
    cases error with
    | none =>
      rw [hpool.establish_eq] at h
      cases h
      exact .connects going rest
    | some e =>
      cases h
      exact .fails going rest
  · cases h

theorem step_of_adopt
    (hrest : Underway c.context.token address c.rest) (hpool : s.pool.Serves address)
    (going : c.ending = none) (h : c.adopt? s = some r) :
  Step address c s .adopt r.1 r.2
  := by
  rw [adopt?] at h
  split at h
  · next asked connection next rest =>
    rw [rest] at hrest
    obtain ⟨k, -, hholding⟩ := hrest.of_adopt
    rw [hholding] at rest
    cases hholding
    cases hkept : s.pool.get? address with
    | none =>
      rw [Pool.Serves.adopt_of_none hkept] at h
      cases h
      exact .adopts going rest hkept
    | some other =>
      rw [hpool.adopt_of_some hkept] at h
      cases h
      exact .yields going rest hkept
  · cases h

theorem step_of_open
    (going : c.ending = none) {id : Nat} (h : c.open? s id = some r) :
  Step address c s (.opened id) r.1 r.2
  := by
  rw [open?] at h
  split at h
  · next connection k rest bare =>
    cases hlive : s.pool.isLive connection with
    | true =>
      rw [if_pos hlive] at h
      cases h
      exact .opens going rest bare hlive id
    | false =>
      rw [if_neg (by simp [hlive])] at h
      cases h
      exact .strays going rest bare hlive id
  · cases h

theorem step_of_finish (going : c.ending = none) (h : c.finish? s = some r) :
  Step address c s .finish r.1 r.2
  := by
  rw [finish?] at h
  split at h
  · next result rest =>
    cases h
    exact .finishes going rest
  · next payload rest =>
    cases h
    exact .panics going rest
  · cases h

theorem step_of_timeOut (going : c.ending = none) (h : c.timeOut? s = some r) :
  Step address c s .timeOut r.1 r.2
  := by
  rw [timeOut?] at h
  split at h
  · cases h
  · next time limit deadline =>
    split at h
    · next hdue =>
      obtain ⟨waiting, due⟩ := Bool.and_eq_true_iff.mp hdue
      cases h
      exact .timesOut going deadline waiting (of_decide_eq_true due)
    · cases h

theorem step_of_abandon (going : c.ending = none) (h : c.abandon? s = some r) :
  Step address c s .abandon r.1 r.2
  := by
  rw [abandon?] at h
  split at h
  · next hcancelled =>
    obtain ⟨waiting, cancelled⟩ := Bool.and_eq_true_iff.mp hcancelled
    cases h
    exact .abandons going waiting cancelled
  · cases h

theorem step_of_accept (h : c.accept? s = some r) :
  Step address c s .accept r.1 r.2
  := by
  obtain ⟨strand, opened, h⟩ := Option.bind_eq_some_iff.mp h
  split at h
  · next fresh =>
    cases h
    exact .accepted opened (Option.isNone_iff_eq_none.mp fresh)
  · cases h

/-- Whatever a call does or happens to it is one of the rules. -/
theorem step_of_move?
    (hrest : Underway c.context.token address c.rest) (hpool : s.pool.Serves address) {move : Move}
    (h : c.move? s move = some r) :
  Step address c s move r.1 r.2
  := by
  have hgoing : ∀ {x : Option (Call ν × Shared ν)},
      (if c.ending.isNone then x else none) = some r → c.ending = none ∧ x = some r := by
    intro x hx
    split at hx
    · next going => exact ⟨Option.isNone_iff_eq_none.mp going, hx⟩
    · cases hx
  cases move with
  | proceed =>
    obtain ⟨going, h⟩ := hgoing h
    exact step_of_proceed going h
  | look =>
    obtain ⟨going, h⟩ := hgoing h
    exact step_of_look hrest hpool going h
  | dialed error =>
    obtain ⟨going, h⟩ := hgoing h
    exact step_of_dialed hrest hpool going h
  | adopt =>
    obtain ⟨going, h⟩ := hgoing h
    exact step_of_adopt hrest hpool going h
  | opened id =>
    obtain ⟨going, h⟩ := hgoing h
    exact step_of_open going h
  | finish =>
    obtain ⟨going, h⟩ := hgoing h
    exact step_of_finish going h
  | cancel =>
    cases h
    exact .cancelled
  | timeOut =>
    obtain ⟨going, h⟩ := hgoing h
    exact step_of_timeOut going h
  | abandon =>
    obtain ⟨going, h⟩ := hgoing h
    exact step_of_abandon going h
  | accept => exact step_of_accept h
  | carryThere load =>
    obtain ⟨strand, opened, h⟩ := Option.bind_eq_some_iff.mp h
    obtain ⟨strand', carried, heq⟩ := Option.map_eq_some_iff.mp h
    cases heq
    exact .carriedThere opened carried
  | carryBack load =>
    obtain ⟨strand, opened, h⟩ := Option.bind_eq_some_iff.mp h
    obtain ⟨strand', carried, heq⟩ := Option.map_eq_some_iff.mp h
    cases heq
    exact .carriedBack opened carried
  | serve =>
    obtain ⟨strand, opened, h⟩ := Option.bind_eq_some_iff.mp h
    obtain ⟨duty, accepted, h⟩ := Option.bind_eq_some_iff.mp h
    obtain ⟨⟨duty', world⟩, served, heq⟩ := Option.map_eq_some_iff.mp h
    cases heq
    exact .serves opened accepted served
  | release =>
    obtain ⟨c', h, heq⟩ := Option.map_eq_some_iff.mp h
    obtain ⟨strand, opened, h⟩ := Option.bind_eq_some_iff.mp h
    obtain ⟨duty, accepted, h⟩ := Option.bind_eq_some_iff.mp h
    obtain ⟨duty', released, rfl⟩ := Option.map_eq_some_iff.mp h
    cases heq
    exact .releases opened accepted released
  | leave =>
    obtain ⟨strand, opened, h⟩ := Option.bind_eq_some_iff.mp h
    obtain ⟨duty, accepted, h⟩ := Option.bind_eq_some_iff.mp h
    obtain ⟨⟨duty', world⟩, left, heq⟩ := Option.map_eq_some_iff.mp h
    cases heq
    exact .leaves opened accepted left

/-- Whatever the rules say can happen. -/
theorem move?_of_step
    (hpool : s.pool.Serves address) {move : Move} {c' : Call ν} {s' : Shared ν}
    (h : Step address c s move c' s') :
  c.move? s move = some (c', s')
  := by
  cases h with
  | prepares going rest answered => simp [move?, going, proceed?, rest, answered]
  | exchanges going rest opened answered =>
    simp [move?, going, proceed?, rest, opened, answered]
  | collects going rest opened answered =>
    simp [move?, going, proceed?, rest, opened, answered]
  | sleeps going rest => simp [move?, going, proceed?, rest]
  | rests going rest => simp [move?, going, proceed?, rest]
  | finds going rest kept => simp [move?, going, look?, rest, looking, hpool.lookup_eq, kept]
  | misses going rest bare => simp [move?, going, look?, rest, looking, hpool.lookup_eq, bare]
  | fails going rest => simp [move?, going, dialed?, rest, dialing]
  | connects going rest => simp [move?, going, dialed?, rest, dialing, hpool.establish_eq]
  | adopts going rest bare =>
    simp [move?, going, adopt?, rest, holding, Pool.Serves.adopt_of_none bare]
  | yields going rest kept =>
    simp [move?, going, adopt?, rest, holding, hpool.adopt_of_some kept]
  | opens going rest bare live id => simp [move?, going, open?, rest, asking, bare, live]
  | strays going rest bare dead id => simp [move?, going, open?, rest, asking, bare, dead]
  | finishes going rest => simp [move?, going, finish?, rest]
  | panics going rest => simp [move?, going, finish?, rest]
  | timesOut going deadline waiting due =>
    simp [move?, going, timeOut?, deadline, waiting, due]
  | abandons going waiting cancelled => simp [move?, going, abandon?, waiting, cancelled]
  | cancelled => rfl
  | accepted opened fresh => simp [move?, accept?, opened, fresh]
  | carriedThere opened carried => simp [move?, opened, carried]
  | carriedBack opened carried => simp [move?, opened, carried]
  | serves opened accepted served => simp [move?, serve?, opened, accepted, served]
  | releases opened accepted released => simp [move?, release?, opened, accepted, released]
  | leaves opened accepted left => simp [move?, leave?, opened, accepted, left]

end

end Call

end StreamCall.Client
