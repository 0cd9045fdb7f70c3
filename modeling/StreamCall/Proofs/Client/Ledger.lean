import Mathlib.Data.List.Dedup
import Mathlib.Data.List.Nodup
import Mathlib.Data.List.Perm.Subperm
import StreamCall.Proofs.Client.Race

/-!
# What becomes of connections

A `Ledger` tells what has become of the connections of a race, by what can be seen of each step:
which connections calls have opened, which ones a step has taken out of the pool, and which ones
calls have given up for another.  It always balances (`Ledger.Balances.run`): a connection that
was kept or has been opened is kept, held by the call that opened it, evicted, given up or drained,
and only one of these.  So no connection is lost, and the counters of the pool are right
(`Race.connections_accounted`).
-/

namespace StreamCall.Client

/-- A connection that has been opened, and the call that opened it. -/
structure Opening where
  call : Nat
  address : String
  connection : Nat
deriving DecidableEq, Repr

/-- The connection with its address. -/
def Opening.entry (o : Opening) : String × Nat := (o.address, o.connection)

/-- What has become of the connections of a race. -/
structure Ledger where
  /-- The connections that have been opened, in their order. -/
  opened : List Opening
  /-- The connections that calls have taken out of the pool. -/
  evicted : List (String × Nat)
  /-- The connections that calls have given up for another. -/
  duplicates : List (String × Nat)
  /-- The connections that were taken out when the client was closed. -/
  drained : List (String × Nat)
deriving DecidableEq, Repr

/-- The connections that are kept before a step and not after it. -/
def Pool.dropped (p p' : Pool) : List (String × Nat) :=
  p.kept.filter fun e => e ∉ p'.kept

namespace Race

/-- The connection that a call holds. -/
def heldBy (r : Race) (call : Nat) : Option (String × Nat) :=
  r.getters[call]?.bind Getter.held

/-- How far a call is. -/
def progressOf (r : Race) (call : Nat) : Option Progress :=
  r.getters[call]?.map Getter.progress

end Race

namespace Pool

variable {p p' : Pool}

theorem dropped_eq_nil (h : ∀ e ∈ p.kept, e ∈ p'.kept) :
  p.dropped p' = []
  := by
  rw [dropped, List.filter_eq_nil_iff]
  intro e he
  simpa using h e he

theorem dropped_eq_singleton
    {e : String × Nat} {rest : List (String × Nat)} (h : p.kept.Perm (e :: rest))
    (hrest : ∀ e ∈ rest, e ∈ p'.kept) (he : e ∉ p'.kept) :
  p.dropped p' = [e]
  := by
  have hfilter : rest.filter (fun e => decide (e ∉ p'.kept)) = [] := by
    rw [List.filter_eq_nil_iff]
    intro e he
    simpa using hrest e he
  apply List.perm_singleton.mp
  apply (h.filter _).trans
  rw [List.filter_cons_of_pos (by simpa using he), hfilter]

end Pool

namespace Race

/-- The connections that are kept or held, with their addresses. -/
def served (r : Race) : List (String × Nat) := r.pool.kept ++ r.held

theorem progressOf_advance
    {r : Race} {call : Nat} {g : Getter} (h : r.getters[call]? = some g) (after : Progress)
    (pool : Pool) :
  (r.advance call after pool).progressOf call = some after
  := by
  rw [progressOf, getElem?_advance, if_pos rfl, h]
  rfl

end Race

namespace Ledger

/-- Nothing has happened. -/
def blank : Ledger := ⟨[], [], [], []⟩

/-- Enters a step of a race, from what can be seen before and after it. -/
def enter (l : Ledger) (r : Race) (event : Race.Event) (r' : Race) : Ledger :=
  match event with
  | .look _ => { l with evicted := l.evicted ++ r.pool.dropped r'.pool }
  | .connected call =>
    { l with
      opened := l.opened ++ (r'.heldBy call).toList.map fun e => ⟨call, e.1, e.2⟩ }
  | .adopt call =>
    { l with
      evicted := l.evicted ++ r.pool.dropped r'.pool
      duplicates := l.duplicates
        ++ (r.heldBy call).toList.filter fun e => r'.progressOf call ≠ some (.got e.2) }
  | .shut => { l with drained := l.drained ++ r.pool.dropped r'.pool }
  | _ => l

/-- The ledger after some events, as far as they can happen. -/
def after (l : Ledger) (r : Race) : List Race.Event → Ledger
  | [] => l
  | event :: rest =>
    match r.step? event with
    | none => l
    | some r' => (l.enter r event r').after r' rest

/-- The connections that are out of the pool and held by no call. -/
def gone (l : Ledger) : List (String × Nat) :=
  l.evicted ++ (l.duplicates ++ l.drained)

theorem enter_look
    (l : Ledger) (r : Race) (call : Nat) (after : Progress) {pool : Pool} {es : List (String × Nat)}
    (h : r.pool.dropped pool = es) :
  l.enter r (.look call) (r.advance call after pool) = { l with evicted := l.evicted ++ es }
  := by
  rw [← h]
  rfl

theorem heldBy_of_holding
    {r : Race} {call : Nat} {address : String} {c : Nat}
    (h : r.getters[call]? = some ⟨address, .holding c⟩) :
  r.heldBy call = some (address, c)
  := by
  rw [Race.heldBy, h]
  rfl

/-- A call that adopts its connection gives up none. -/
theorem enter_adopt_own
    (l : Ledger) {r : Race} {call : Nat} {address : String} {fresh : Nat}
    (hcall : r.getters[call]? = some ⟨address, .holding fresh⟩) {pool : Pool}
    {es : List (String × Nat)} (h : r.pool.dropped pool = es) :
  l.enter r (.adopt call) (r.advance call (.got fresh) pool)
    = { l with evicted := l.evicted ++ es }
  := by
  have hdropped : r.pool.dropped (r.advance call (.got fresh) pool).pool = es := h
  simp [enter, hdropped, heldBy_of_holding hcall, Race.progressOf_advance hcall]

/-- A call that gets another connection gives up its own. -/
theorem enter_adopt_other
    (l : Ledger) {r : Race} {call : Nat} {address : String} {fresh other : Nat}
    (hcall : r.getters[call]? = some ⟨address, .holding fresh⟩) (hne : other ≠ fresh) {pool : Pool}
    (h : r.pool.dropped pool = []) :
  l.enter r (.adopt call) (r.advance call (.got other) pool)
    = { l with duplicates := l.duplicates ++ [(address, fresh)] }
  := by
  have hdropped : r.pool.dropped (r.advance call (.got other) pool).pool = [] := h
  simp [enter, hdropped, heldBy_of_holding hcall, Race.progressOf_advance hcall, hne]

theorem enter_connected
    (l : Ledger) {r : Race} {call : Nat} {address : String}
    (hcall : r.getters[call]? = some ⟨address, .dialing⟩) (c : Nat) (pool : Pool) :
  l.enter r (.connected call) (r.advance call (.holding c) pool)
    = { l with opened := l.opened ++ [⟨call, address, c⟩] }
  := by
  have hheld : (r.advance call (.holding c) pool).heldBy call = some (address, c) := by
    apply heldBy_of_holding
    rw [Race.getElem?_advance, if_pos rfl, hcall]
    rfl
  simp [enter, hheld]

theorem gone_evict (l : Ledger) (e : String × Nat) :
  { l with evicted := l.evicted ++ [e] }.gone.Perm (e :: l.gone)
  := by
  rw [gone, List.append_assoc]
  exact List.perm_middle

theorem gone_giveUp (l : Ledger) (e : String × Nat) :
  { l with duplicates := l.duplicates ++ [e] }.gone.Perm (e :: l.gone)
  := by
  rw [gone, List.append_assoc, ← List.append_assoc]
  apply List.perm_middle.trans
  rw [List.append_assoc]
  rfl

/-- Whether a ledger tells what has become of the connections of a pool and of those opened since,
in a race that began with that pool. -/
structure Balances (l : Ledger) (p : Pool) (r : Race) : Prop where
  /-- Each connection is in one place. -/
  fates : (p.kept ++ l.opened.map Opening.entry).Perm (r.pool.kept ++ (r.held ++ l.gone))
  dials : r.pool.dials = p.dials + l.opened.length
  numbers : l.opened.map Opening.connection = List.range' p.dials l.opened.length
  evictions : r.pool.evictions = p.evictions + l.evicted.length
  dead : ∀ e ∈ l.gone, r.pool.isLive e.2 = false
  closed_lt : ∀ c ∈ r.pool.closed, c < r.pool.dials
  addresses : (r.pool.kept.map Prod.fst).Nodup
  /-- What a call holds it has opened. -/
  holders : ∀ call address c, r.getters[call]? = some ⟨address, .holding c⟩ →
    ⟨call, address, c⟩ ∈ l.opened
  callers : ∀ o ∈ l.opened, r.getters[o.call]?.map Getter.address = some o.address

namespace Balances

variable {l : Ledger} {p : Pool} {r r' : Race}

theorem idle (hp : p.Sound) :
  blank.Balances p (.idle p)
  := by
  constructor
  · simp [blank, gone, Race.idle, Race.held]
  · rfl
  · rfl
  · rfl
  · intro e he
    cases he
  · exact hp.closed_lt
  · exact hp.addresses
  · intro call address c hcall
    cases hcall
  · intro o ho
    cases ho

/-- All connections are different. -/
theorem distinct (h : l.Balances p r) (hp : p.Sound) :
  ((r.pool.kept ++ (r.held ++ l.gone)).map Prod.snd).Nodup
  := by
  have hnumbers : (l.opened.map Opening.entry).map Prod.snd
      = List.range' p.dials l.opened.length := by
    rw [← h.numbers, List.map_map]
    rfl
  apply (h.fates.map Prod.snd).nodup_iff.mp
  rw [List.map_append, hnumbers]
  apply List.Nodup.append hp.connections List.nodup_range'
  intro c hkept hopened
  obtain ⟨e, he, rfl⟩ := List.mem_map.mp hkept
  have hlt := hp.kept_lt e he
  have hle := (List.mem_range'_1.mp hopened).1
  omega

/-- Connections that have been opened since the beginning are new. -/
theorem le_of_opened (h : l.Balances p r) {o : Opening} (ho : o ∈ l.opened) :
  p.dials ≤ o.connection
  := by
  have hnumber : o.connection ∈ List.range' p.dials l.opened.length :=
    h.numbers ▸ List.mem_map_of_mem ho
  exact (List.mem_range'_1.mp hnumber).1

/-- Connections that are known have been opened. -/
theorem lt_dials
    (h : l.Balances p r) (hp : p.Sound) {e : String × Nat}
    (he : e ∈ r.pool.kept ++ (r.held ++ l.gone)) :
  e.2 < r.pool.dials
  := by
  rw [h.dials]
  obtain hkept | hopened := List.mem_append.mp (h.fates.mem_iff.mpr he)
  · have hlt := hp.kept_lt e hkept
    omega
  · obtain ⟨o, ho, rfl⟩ := List.mem_map.mp hopened
    have hnumber : o.connection ∈ List.range' p.dials l.opened.length :=
      h.numbers ▸ List.mem_map_of_mem ho
    exact (List.mem_range'_1.mp hnumber).2

theorem served_lt (h : l.Balances p r) (hp : p.Sound) {e : String × Nat} (he : e ∈ r.served) :
  e.2 < r.pool.dials
  := by
  apply h.lt_dials hp
  rw [← List.append_assoc]
  exact List.mem_append_left _ he

/-- A connection that is gone is not kept or held any more. -/
theorem served_ne_gone
    (h : l.Balances p r) (hp : p.Sound) {e e' : String × Nat} (he : e ∈ r.served)
    (he' : e' ∈ l.gone) :
  e.2 ≠ e'.2
  := by
  have hdistinct := h.distinct hp
  rw [← List.append_assoc, List.map_append] at hdistinct
  exact (List.nodup_append.mp hdistinct).2.2 e.2 (List.mem_map_of_mem he) e'.2
    (List.mem_map_of_mem he')

/-! ### Steps -/

/-- A call gets further without holding a connection afterwards: what it held before goes to where
the ledger and the pool say. -/
theorem advance
    (h : l.Balances p r) {call : Nat} {address : String} {before after : Progress} {l' : Ledger}
    {pool : Pool} (hcall : r.getters[call]? = some ⟨address, before⟩)
    (hafter : Getter.held ⟨address, after⟩ = none) (hopened : l'.opened = l.opened)
    (hfates : (pool.kept ++ l'.gone).Perm
      ((Getter.held ⟨address, before⟩).toList ++ (r.pool.kept ++ l.gone)))
    (hdials : pool.dials = r.pool.dials)
    (hevictions : pool.evictions + l.evicted.length = r.pool.evictions + l'.evicted.length)
    (hdead : ∀ e ∈ l'.gone, pool.isLive e.2 = false)
    (hclosed : ∀ c ∈ pool.closed, c < r.pool.dials) (haddresses : (pool.kept.map Prod.fst).Nodup) :
  l'.Balances p (r.advance call after pool)
  := by
  constructor
  · rw [hopened]
    apply h.fates.trans
    have hheld := Race.held_advance hcall after pool
    rw [hafter] at hheld
    rw [List.perm_iff_count] at hheld hfates ⊢
    intro e
    have hheld := hheld e
    have hfates := hfates e
    simp only [List.count_append, Option.toList_none, List.count_nil] at hheld hfates ⊢
    show _ = pool.kept.count e + _
    omega
  · exact hdials.trans (hopened ▸ h.dials)
  · exact hopened ▸ h.numbers
  · have := h.evictions
    show pool.evictions = _
    omega
  · exact hdead
  · exact fun c hc => hdials ▸ hclosed c hc
  · exact haddresses
  · intro j a c hj
    rw [hopened]
    exact h.holders j a c (Race.holding_of_advance hafter hj)
  · intro o ho
    rw [Race.address_advance]
    exact h.callers o (hopened ▸ ho)

/-- A call gets further, and neither the pool nor what is held changes. -/
theorem pass
    (h : l.Balances p r) {call : Nat} {address : String} {before after : Progress}
    (hcall : r.getters[call]? = some ⟨address, before⟩)
    (hbefore : Getter.held ⟨address, before⟩ = none)
    (hafter : Getter.held ⟨address, after⟩ = none) :
  l.Balances p (r.advance call after r.pool)
  :=
  h.advance hcall hafter rfl (hbefore ▸ .rfl) rfl rfl h.dead h.closed_lt h.addresses

/-- What a call holds is not kept. -/
theorem ne_held
    (h : l.Balances p r) (hp : p.Sound) {e e' : String × Nat} (he : e ∈ r.pool.kept)
    (he' : e' ∈ r.held) :
  e.2 ≠ e'.2
  := by
  have hdistinct := h.distinct hp
  rw [List.map_append] at hdistinct
  exact (List.nodup_append.mp hdistinct).2.2 e.2 (List.mem_map_of_mem he) e'.2
    (List.mem_map_of_mem (List.mem_append_left _ he'))

theorem dead_of_perm
    (h : l.Balances p r) {l' : Ledger} {e : String × Nat} (hgone : l'.gone.Perm (e :: l.gone))
    {pool : Pool} (hclosed : r.pool.closed ⊆ pool.closed) (he : pool.isLive e.2 = false) :
  ∀ e ∈ l'.gone, pool.isLive e.2 = false
  := by
  intro e' he'
  obtain rfl | he' := List.mem_cons.mp (hgone.mem_iff.mp he')
  · exact he
  · exact Pool.isLive_eq_false_iff.mpr (hclosed (Pool.isLive_eq_false_iff.mp (h.dead e' he')))

/-- What is taken out of the pool is gone. -/
theorem perm_evict
    (h : l.Balances p r) {address : String} {c : Nat} (hkept : r.pool.get? address = some c) :
  (r.pool.without address ++ { l with evicted := l.evicted ++ [(address, c)] }.gone).Perm
    (r.pool.kept ++ l.gone)
  := by
  apply ((l.gone_evict (address, c)).append_left _).trans
  apply List.perm_middle.trans
  exact ((Pool.perm_without h.addresses hkept).append_right l.gone).symm

/-- A closed connection is taken out. -/
theorem evict
    (h : l.Balances p r) {call : Nat} {address : String} {c : Nat}
    (hcall : r.getters[call]? = some ⟨address, .looking⟩)
    (hkept : r.pool.get? address = some c) (hdead : r.pool.isLive c = false) :
  { l with evicted := l.evicted ++ [(address, c)] }.Balances p (r.advance call .dialing
    { r.pool with kept := r.pool.without address, evictions := r.pool.evictions + 1 })
  := by
  apply h.advance hcall rfl
  · rfl
  · exact h.perm_evict hkept
  · rfl
  · simp only [List.length_append, List.length_singleton]
    omega
  · exact h.dead_of_perm (l.gone_evict _) (List.Subset.refl _) hdead
  · exact h.closed_lt
  · exact h.addresses.sublist (List.filter_sublist.map _)

/-- The connection that a call holds is kept where nothing was. -/
theorem adopt
    (h : l.Balances p r) {call : Nat} {address : String} {fresh : Nat}
    (hcall : r.getters[call]? = some ⟨address, .holding fresh⟩)
    (hbare : r.pool.get? address = none) :
  l.Balances p (r.advance call (.got fresh)
    { r.pool with kept := (address, fresh) :: r.pool.kept })
  := by
  apply h.advance hcall rfl
  · rfl
  · rfl
  · rfl
  · rfl
  · exact h.dead
  · exact h.closed_lt
  · apply List.nodup_cons.mpr
    use fun hmem => ?_, h.addresses
    obtain ⟨⟨a, c⟩, he, rfl⟩ := List.mem_map.mp hmem
    exact Pool.not_mem_of_get? hbare c he

/-- A call gives up the connection that it holds for the one that is kept. -/
theorem giveUp
    (h : l.Balances p r) (hp : p.Sound) {call : Nat} {address : String} {fresh : Nat}
    (hcall : r.getters[call]? = some ⟨address, .holding fresh⟩) (other : Nat) :
  { l with duplicates := l.duplicates ++ [(address, fresh)] }.Balances p
    (r.advance call (.got other) (r.pool.close fresh))
  := by
  apply h.advance hcall rfl
  · rfl
  · exact ((l.gone_giveUp _).append_left _).trans List.perm_middle
  · rfl
  · rfl
  · apply h.dead_of_perm (l.gone_giveUp _) (List.subset_cons_self fresh _)
    exact Pool.isLive_eq_false_iff.mpr List.mem_cons_self
  · intro c hc
    obtain rfl | hc := List.mem_cons.mp hc
    · exact h.lt_dials hp
        (List.mem_append_right _ (List.mem_append_left _ (Race.mem_held hcall)))
    · exact h.closed_lt c hc
  · exact h.addresses

/-- The connection that a call holds takes the place of a closed one. -/
theorem replace
    (h : l.Balances p r) {call : Nat} {address : String} {fresh other : Nat}
    (hcall : r.getters[call]? = some ⟨address, .holding fresh⟩)
    (hkept : r.pool.get? address = some other) (hdead : r.pool.isLive other = false) :
  { l with evicted := l.evicted ++ [(address, other)] }.Balances p (r.advance call (.got fresh)
    { r.pool with
      kept := (address, fresh) :: r.pool.without address
      evictions := r.pool.evictions + 1 })
  := by
  apply h.advance hcall rfl
  · rfl
  · exact (h.perm_evict hkept).cons _
  · rfl
  · simp only [List.length_append, List.length_singleton]
    omega
  · exact h.dead_of_perm (l.gone_evict _) (List.Subset.refl _) hdead
  · exact h.closed_lt
  · apply List.nodup_cons.mpr
    use fun hmem => ?_, h.addresses.sublist (List.filter_sublist.map _)
    obtain ⟨e, he, heq⟩ := List.mem_map.mp hmem
    exact (Pool.mem_without.mp he).2 heq

/-- A call has opened a connection. -/
theorem connect
    (h : l.Balances p r) {call : Nat} {address : String}
    (hcall : r.getters[call]? = some ⟨address, .dialing⟩) :
  Balances { l with opened := l.opened ++ [⟨call, address, r.pool.dials⟩] } p
    (r.advance call (.holding r.pool.dials) r.pool.establish.2)
  := by
  have hclosed : ∀ c, c ∈ r.pool.establish.2.closed ↔
      (r.pool.isShut = true ∧ c = r.pool.dials) ∨ c ∈ r.pool.closed := by
    intro c
    rw [Pool.establish]
    cases r.pool.isShut <;> simp
  constructor
  · rw [List.map_append, ← List.append_assoc]
    apply (h.fates.append_right _).trans
    rw [List.append_assoc]
    apply List.Perm.append_left
    apply List.perm_append_comm.trans
    rw [← List.append_assoc]
    apply List.Perm.append_right
    exact (Race.held_advance hcall (.holding r.pool.dials) r.pool.establish.2).symm
  · rw [List.length_append, ← Nat.add_assoc, ← h.dials]
    rfl
  · rw [List.map_append, h.numbers, List.length_append, List.length_singleton,
      List.range'_1_concat, ← h.dials]
    rfl
  · exact h.evictions
  · intro e he
    exact Pool.isLive_eq_false_iff.mpr
      ((hclosed e.2).mpr (.inr (Pool.isLive_eq_false_iff.mp (h.dead e he))))
  · intro c hc
    have hdials : c < r.pool.dials + 1 := by
      obtain ⟨-, rfl⟩ | hc := (hclosed c).mp hc
      · omega
      · have hlt := h.closed_lt c hc
        omega
    exact hdials
  · exact h.addresses
  · intro j a c hj
    rw [Race.getElem?_advance] at hj
    split at hj
    · next heq =>
      subst heq
      rw [hcall] at hj
      cases hj
      exact List.mem_append_right _ (List.mem_singleton_self _)
    · exact List.mem_append_left _ (h.holders j a c hj)
  · intro o ho
    rw [Race.address_advance]
    obtain ho | ho := List.mem_append.mp ho
    · exact h.callers o ho
    · cases List.mem_singleton.mp ho
      rw [hcall]
      rfl

/-- A call comes, and holds nothing yet. -/
theorem come (h : l.Balances p r) (address : String) :
  l.Balances p { r with getters := r.getters ++ [⟨address, .looking⟩] }
  := by
  constructor
  · have hheld : Race.held { r with getters := r.getters ++ [⟨address, .looking⟩] } = r.held := by
      simp [Race.held, Getter.held]
    rw [hheld]
    exact h.fates
  · exact h.dials
  · exact h.numbers
  · exact h.evictions
  · exact h.dead
  · exact h.closed_lt
  · exact h.addresses
  · intro j a c hj
    dsimp only at hj
    rw [List.getElem?_append] at hj
    split at hj
    · exact h.holders j a c hj
    · cases (List.mem_singleton.mp (List.mem_of_getElem? hj))
  · intro o ho
    have hcaller := h.callers o ho
    obtain ⟨g, hg, -⟩ := Option.map_eq_some_iff.mp hcaller
    obtain ⟨hlt, -⟩ := List.getElem?_eq_some_iff.mp hg
    dsimp only
    rw [List.getElem?_append_left hlt]
    exact hcaller

/-- A peer closes a connection. -/
theorem peerClose (h : l.Balances p r) {c : Nat} (hc : c < r.pool.dials) :
  l.Balances p { r with pool := r.pool.close c }
  := by
  constructor
  · exact h.fates
  · exact h.dials
  · exact h.numbers
  · exact h.evictions
  · intro e he
    have hclosed := Pool.isLive_eq_false_iff.mp (h.dead e he)
    exact Pool.isLive_eq_false_iff.mpr (List.mem_cons_of_mem _ hclosed)
  · intro d hd
    obtain rfl | hd := List.mem_cons.mp hd
    · exact hc
    · exact h.closed_lt d hd
  · exact h.addresses
  · exact h.holders
  · exact h.callers

/-- The client is closed. -/
theorem shut (h : l.Balances p r) (hp : p.Sound) :
  { l with drained := l.drained ++ r.pool.kept }.Balances p { r with pool := r.pool.shut }
  := by
  have hgone : { l with drained := l.drained ++ r.pool.kept }.gone = l.gone ++ r.pool.kept := by
    simp [gone]
  constructor
  · rw [hgone]
    apply h.fates.trans
    apply List.perm_append_comm.trans
    rw [List.append_assoc]
    rfl
  · exact h.dials
  · exact h.numbers
  · exact h.evictions
  · rw [hgone]
    intro e he
    have hlt : e.2 < r.pool.dials := by
      apply h.lt_dials hp
      obtain he | he := List.mem_append.mp he
      · exact List.mem_append_right _ (List.mem_append_right _ he)
      · exact List.mem_append_left _ he
    exact Pool.isLive_eq_false_iff.mpr (List.mem_append_left _ (List.mem_range.mpr hlt))
  · intro c hc
    obtain hc | hc := List.mem_append.mp hc
    · exact List.mem_range.mp hc
    · exact h.closed_lt c hc
  · exact List.nodup_nil
  · exact h.holders
  · exact h.callers

/-! ### Runs -/

theorem step
    (h : l.Balances p r) (hp : p.Sound) {event : Race.Event} (hstep : Race.Step r event r') :
  (l.enter r event r').Balances p r'
  := by
  cases hstep with
  | come address => exact h.come address
  | found looking kept live =>
    rw [l.enter_look r _ _ (Pool.dropped_eq_nil fun _ he => he), List.append_nil]
    exact h.pass looking rfl rfl
  | missed looking bare =>
    rw [l.enter_look r _ _ (Pool.dropped_eq_nil fun _ he => he), List.append_nil]
    exact h.pass looking rfl rfl
  | @evicted call address c looking kept dead =>
    have hout : (address, c) ∉ r.pool.without address := fun he => (Pool.mem_without.mp he).2 rfl
    rw [l.enter_look r _ _ (Pool.dropped_eq_singleton (Pool.perm_without h.addresses kept)
      (fun _ he => he) hout)]
    exact h.evict looking kept dead
  | connected dialing =>
    rw [l.enter_connected dialing]
    exact h.connect dialing
  | refused dialing => exact h.pass dialing rfl rfl
  | adopted holding bare =>
    rw [l.enter_adopt_own holding (Pool.dropped_eq_nil fun _ he => List.mem_cons_of_mem _ he),
      List.append_nil]
    exact h.adopt holding bare
  | @yielded call address fresh other holding kept live =>
    have hne : other ≠ fresh := h.ne_held hp (Pool.mem_of_get? kept) (Race.mem_held holding)
    have hstill : r.pool.dropped (r.pool.close fresh) = [] := Pool.dropped_eq_nil fun _ he => he
    rw [l.enter_adopt_other holding hne hstill]
    exact h.giveUp hp holding other
  | @replaced call address fresh other holding kept dead =>
    have hne : other ≠ fresh := h.ne_held hp (Pool.mem_of_get? kept) (Race.mem_held holding)
    have hout : (address, other) ∉ (address, fresh) :: r.pool.without address := by
      simp [Pool.mem_without, hne]
    rw [l.enter_adopt_own holding (Pool.dropped_eq_singleton (Pool.perm_without h.addresses kept)
      (fun _ he => List.mem_cons_of_mem _ he) hout)]
    exact h.replace holding kept dead
  | peerCloses opened => exact h.peerClose opened
  | shut =>
    have hall : r.pool.dropped r.pool.shut = r.pool.kept :=
      List.filter_eq_self.mpr fun _ _ => decide_eq_true List.not_mem_nil
    rw [enter, hall]
    exact h.shut hp

/-- Whatever has happened in a race, the ledger tells what has become of the connections. -/
theorem run
    (h : l.Balances p r) (hp : p.Sound) {events : List Race.Event}
    (hrun : r.run? events = some r') :
  (l.after r events).Balances p r'
  := by
  induction events generalizing l r with
  | nil =>
    cases hrun
    exact h
  | cons event events ih =>
    obtain ⟨r₁, hstep, hrest⟩ := Option.bind_eq_some_iff.mp hrun
    rw [after, hstep]
    exact ih (h.step hp (Race.step_of_step? hstep)) hrest

/-- The pools of a race stay sound. -/
theorem sound (h : l.Balances p r) (hp : p.Sound) :
  r.pool.Sound
  := by
  constructor
  · exact h.addresses
  · have hdistinct := h.distinct hp
    rw [List.map_append] at hdistinct
    exact (List.nodup_append.mp hdistinct).1
  · intro e he
    exact h.lt_dials hp (List.mem_append_left _ he)
  · exact h.closed_lt

/-! ### Where connections are -/

/-- A connection that has been opened is kept for its address, held by the call that opened it, or
gone. -/
theorem opened_cases (h : l.Balances p r) {o : Opening} (ho : o ∈ l.opened) :
  o.entry ∈ r.pool.kept ∨ r.getters[o.call]? = some ⟨o.address, .holding o.connection⟩
    ∨ o.entry ∈ l.gone
  := by
  have hentry : o.entry ∈ p.kept ++ l.opened.map Opening.entry :=
    List.mem_append_right _ (List.mem_map_of_mem ho)
  obtain hkept | hrest := List.mem_append.mp (h.fates.mem_iff.mp hentry)
  · exact .inl hkept
  · obtain hheld | hgone := List.mem_append.mp hrest
    · obtain ⟨g, hg, hholding⟩ := List.mem_filterMap.mp hheld
      obtain ⟨j, hj⟩ := List.mem_iff_getElem?.mp hg
      rw [Getter.eq_of_held hholding] at hj
      have hconnections : (l.opened.map Opening.connection).Nodup :=
        h.numbers ▸ List.nodup_range'
      have heq : ⟨j, o.address, o.connection⟩ = o :=
        List.inj_on_of_nodup_map hconnections (h.holders j _ _ hj) ho rfl
      rw [← heq]
      exact .inr (.inl hj)
    · exact .inr (.inr hgone)

/-- A pool that was empty keeps connections only for addresses that calls have asked for. -/
theorem requested (h : l.Balances .empty r) :
  r.pool.kept.map Prod.fst ⊆ (r.getters.map Getter.address).dedup
  := by
  intro address haddress
  obtain ⟨e, he, rfl⟩ := List.mem_map.mp haddress
  obtain ⟨o, ho, rfl⟩ := List.mem_map.mp (h.fates.mem_iff.mpr (List.mem_append_left _ he))
  obtain ⟨g, hg, hcaller⟩ := Option.map_eq_some_iff.mp (h.callers o ho)
  rw [List.mem_dedup]
  exact List.mem_map.mpr ⟨g, List.mem_of_getElem? hg, hcaller⟩

end Balances

end Ledger

/-! ### A client from its beginning -/

namespace Race

/-- The ledger of a client from its beginning. -/
def ledger (events : List Event) : Ledger := Ledger.blank.after (idle .empty) events

/-- In every state of a client each connection that has been opened is kept for its address,
closed, or held by the call that opened it.  The connections that calls have taken out of the pool
were closed and are the evictions, each counted once, and the counters of the pool add up. -/
theorem connections_accounted
    {events : List Event} {r : Race} (hrun : (idle .empty).run? events = some r) :
  (ledger events).opened.map Opening.connection = List.range r.pool.dials
  ∧ (∀ o ∈ (ledger events).opened,
      (o.address, o.connection) ∈ r.pool.kept ∨ r.pool.isLive o.connection = false
        ∨ r.getters[o.call]? = some ⟨o.address, .holding o.connection⟩)
  ∧ (∀ e ∈ (ledger events).gone, r.pool.isLive e.2 = false)
  ∧ r.pool.evictions = (ledger events).evicted.length
  ∧ ((ledger events).evicted.map Prod.snd).Nodup
  ∧ r.pool.dials = r.pool.kept.length + r.pool.evictions + (ledger events).duplicates.length
      + (ledger events).drained.length + r.held.length
  ∧ r.pool.live ≤ r.pool.dials - r.pool.evictions
  ∧ r.pool.live ≤ (r.getters.map Getter.address).dedup.length
  := by
  have hsound := Pool.sound_empty
  have h : (ledger events).Balances .empty r := (Ledger.Balances.idle hsound).run hsound hrun
  have hdials : r.pool.dials = (ledger events).opened.length := h.dials.trans (Nat.zero_add _)
  have hevictions : r.pool.evictions = (ledger events).evicted.length :=
    h.evictions.trans (Nat.zero_add _)
  have hsum : r.pool.dials = r.pool.kept.length + r.pool.evictions
      + (ledger events).duplicates.length + (ledger events).drained.length + r.held.length := by
    have hlength := h.fates.length_eq
    simp only [List.length_append, List.length_map, List.length_nil, Ledger.gone, Pool.empty]
      at hlength
    omega
  have hlive : r.pool.live ≤ r.pool.kept.length := List.length_filter_le _ _
  refine ⟨?_, ?_, h.dead, hevictions, ?_, hsum, by omega, ?_⟩
  · rw [hdials, List.range_eq_range']
    exact h.numbers
  · intro o ho
    obtain hkept | hheld | hgone := h.opened_cases ho
    · exact .inl hkept
    · exact .inr (.inr hheld)
    · exact .inr (.inl (h.dead o.entry hgone))
  · refine List.Nodup.sublist (List.Sublist.map _ ?_) (h.distinct hsound)
    exact (List.sublist_append_left _ _).trans
      ((List.sublist_append_right _ _).trans (List.sublist_append_right _ _))
  · apply Nat.le_trans hlive
    rw [← List.length_map]
    exact (h.addresses.subperm h.requested).length_le

/-- Two calls open connections to one address, and one of them gives its own up.  A peer closes
the other one, and a third call evicts it.  Then the client is closed while a call to another
address holds its connection. -/
def turmoil : List Event :=
  [.come "a", .come "a", .look 0, .look 1, .connected 0, .connected 1, .adopt 0, .adopt 1,
    .peerCloses 0, .come "a", .look 2, .connected 2, .adopt 2, .come "b", .look 3, .connected 3,
    .shut, .adopt 3]

/-- What the turmoil leaves. -/
def turmoiled : Race :=
  { pool :=
      { kept := [("b", 3)], closed := [0, 1, 2, 3, 0, 1], dials := 4, evictions := 1
        isShut := true }
    getters := [⟨"a", .got 0⟩, ⟨"a", .got 0⟩, ⟨"a", .got 2⟩, ⟨"b", .got 3⟩] }

/-- All that can become of a connection has become of one. -/
theorem connections_accounted_turmoil :
  (idle .empty).run? turmoil = some turmoiled
  ∧ ledger turmoil
    = { opened := [⟨0, "a", 0⟩, ⟨1, "a", 1⟩, ⟨2, "a", 2⟩, ⟨3, "b", 3⟩]
        evicted := [("a", 0)], duplicates := [("a", 1)], drained := [("a", 2)] }
  ∧ (∀ e ∈ (ledger turmoil).gone, turmoiled.pool.isLive e.2 = false)
  ∧ turmoiled.pool.dials = turmoiled.pool.kept.length + turmoiled.pool.evictions
      + (ledger turmoil).duplicates.length + (ledger turmoil).drained.length
      + turmoiled.held.length
  := by
  have hrun : (idle .empty).run? turmoil = some turmoiled := by decide
  obtain ⟨-, -, hdead, -, -, hsum, -⟩ := connections_accounted hrun
  exact ⟨hrun, by decide, hdead, hsum⟩

end Race

end StreamCall.Client
