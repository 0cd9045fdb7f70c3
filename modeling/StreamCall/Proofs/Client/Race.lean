import Mathlib.Data.List.Nodup
import StreamCall.Client.Race

/-!
# Steps of calls that share a pool

What a step of a race can do is `Race.Step`, one rule for each case (`step_of_step?`).  A pool
is `Sound` if it keeps one connection for an address and one address for a connection, and
knows of no connections but those that have been opened.
-/

namespace StreamCall.Client

namespace Pool

/-- Whether a pool keeps different connections for different addresses, and has opened all the
connections that it knows of. -/
structure Sound (p : Pool) : Prop where
  addresses : (p.kept.map Prod.fst).Nodup
  connections : (p.kept.map Prod.snd).Nodup
  kept_lt : ∀ e ∈ p.kept, e.2 < p.dials
  closed_lt : ∀ c ∈ p.closed, c < p.dials

theorem sound_empty :
  empty.Sound
  := by
  constructor
  · exact List.nodup_nil
  · exact List.nodup_nil
  · intro e he
    cases he
  · intro c hc
    cases hc

theorem isLive_eq_false_iff {p : Pool} {c : Nat} :
  p.isLive c = false ↔ c ∈ p.closed
  := by
  simp [isLive]

theorem mem_of_get? {p : Pool} {address : String} {c : Nat} (h : p.get? address = some c) :
  (address, c) ∈ p.kept
  := by
  obtain ⟨⟨a, d⟩, hfind, rfl⟩ := Option.map_eq_some_iff.mp h
  obtain rfl : a = address := by simpa using List.find?_some hfind
  exact List.mem_of_find?_eq_some hfind

theorem not_mem_of_get? {p : Pool} {address : String} (h : p.get? address = none) (c : Nat) :
  (address, c) ∉ p.kept
  := by
  intro hmem
  have hnone := List.find?_eq_none.mp (Option.map_eq_none_iff.mp h) (address, c) hmem
  simp at hnone

theorem mem_without {p : Pool} {address : String} {e : String × Nat} :
  e ∈ p.without address ↔ e ∈ p.kept ∧ e.1 ≠ address
  := by
  simp [without]

/-- What is kept is the connection for an address and those for the others. -/
theorem perm_without
    {p : Pool} (h : (p.kept.map Prod.fst).Nodup) {address : String} {c : Nat}
    (hget : p.get? address = some c) :
  p.kept.Perm ((address, c) :: p.without address)
  := by
  have hmem := mem_of_get? hget
  apply (List.perm_ext_iff_of_nodup h.of_map (List.nodup_cons.mpr ⟨?_, ?_⟩)).mpr
  · rintro ⟨a, d⟩
    rw [List.mem_cons, mem_without]
    by_cases ha : a = address
    · subst ha
      constructor
      · intro hd
        exact .inl (List.inj_on_of_nodup_map h hd hmem rfl)
      · rintro (heq | ⟨-, hne⟩)
        · exact heq ▸ hmem
        · exact absurd rfl hne
    · simp [ha]
  · simp [mem_without]
  · exact h.of_map.filter _

/-- The connection that is kept for an address is the one that is found there. -/
theorem get?_eq_some_iff {p : Pool} (h : (p.kept.map Prod.fst).Nodup) {address : String} {c : Nat} :
  p.get? address = some c ↔ (address, c) ∈ p.kept
  := by
  constructor
  · exact mem_of_get?
  · intro hmem
    cases hget : p.get? address with
    | none => exact absurd hmem (not_mem_of_get? hget c)
    | some d => rw [(Prod.mk.inj (List.inj_on_of_nodup_map h hmem (mem_of_get? hget) rfl)).2]

end Pool

/-- The connection that a call has opened and not adopted, with its address. -/
def Getter.held : Getter → Option (String × Nat)
  | ⟨address, .holding connection⟩ => some (address, connection)
  | _ => none

theorem Getter.eq_of_held {g : Getter} {address : String} {c : Nat}
    (h : g.held = some (address, c)) :
  g = ⟨address, .holding c⟩
  := by
  obtain ⟨a, progress⟩ := g
  cases progress with
  | holding d =>
    cases h
    rfl
  | _ => cases h

namespace Race

/-- What can happen in a race, and what becomes of it then. -/
inductive Step (r : Race) : Event → Race → Prop where
  | come (address : String) :
    Step r (.come address) { r with getters := r.getters ++ [⟨address, .looking⟩] }
  /-- A live connection is kept. -/
  | found {call : Nat} {address : String} {c : Nat}
    (looking : r.getters[call]? = some ⟨address, .looking⟩)
    (kept : r.pool.get? address = some c) (live : r.pool.isLive c = true) :
    Step r (.look call) (r.advance call (.got c) r.pool)
  /-- Nothing is kept. -/
  | missed {call : Nat} {address : String}
    (looking : r.getters[call]? = some ⟨address, .looking⟩) (bare : r.pool.get? address = none) :
    Step r (.look call) (r.advance call .dialing r.pool)
  /-- A closed connection is kept, and taken out. -/
  | evicted {call : Nat} {address : String} {c : Nat}
    (looking : r.getters[call]? = some ⟨address, .looking⟩)
    (kept : r.pool.get? address = some c) (dead : r.pool.isLive c = false) :
    Step r (.look call) (r.advance call .dialing
      { r.pool with kept := r.pool.without address, evictions := r.pool.evictions + 1 })
  | connected {call : Nat} {address : String}
    (dialing : r.getters[call]? = some ⟨address, .dialing⟩) :
    Step r (.connected call) (r.advance call (.holding r.pool.dials) r.pool.establish.2)
  | refused {call : Nat} {address : String}
    (dialing : r.getters[call]? = some ⟨address, .dialing⟩) :
    Step r (.refused call) (r.advance call .failed r.pool)
  /-- Nothing is kept, and the new connection is. -/
  | adopted {call : Nat} {address : String} {fresh : Nat}
    (holding : r.getters[call]? = some ⟨address, .holding fresh⟩)
    (bare : r.pool.get? address = none) :
    Step r (.adopt call) (r.advance call (.got fresh)
      { r.pool with kept := (address, fresh) :: r.pool.kept })
  /-- A live connection is kept, and the new one is closed. -/
  | yielded {call : Nat} {address : String} {fresh other : Nat}
    (holding : r.getters[call]? = some ⟨address, .holding fresh⟩)
    (kept : r.pool.get? address = some other) (live : r.pool.isLive other = true) :
    Step r (.adopt call) (r.advance call (.got other) (r.pool.close fresh))
  /-- A closed connection is kept, and the new one takes its place. -/
  | replaced {call : Nat} {address : String} {fresh other : Nat}
    (holding : r.getters[call]? = some ⟨address, .holding fresh⟩)
    (kept : r.pool.get? address = some other) (dead : r.pool.isLive other = false) :
    Step r (.adopt call) (r.advance call (.got fresh)
      { r.pool with
        kept := (address, fresh) :: r.pool.without address
        evictions := r.pool.evictions + 1 })
  | peerCloses {connection : Nat} (opened : connection < r.pool.dials) :
    Step r (.peerCloses connection) { r with pool := r.pool.close connection }
  | shut :
    Step r .shut { r with pool := r.pool.shut }

theorem step_of_look {r r' : Race} {call : Nat} (h : r.step? (.look call) = some r') :
  Step r (.look call) r'
  := by
  rw [step?] at h
  split at h
  · next address hcall =>
    rw [Pool.lookup] at h
    cases hkept : r.pool.get? address with
    | none =>
      rw [hkept] at h
      cases h
      exact .missed hcall hkept
    | some c =>
      rw [hkept] at h
      cases hlive : r.pool.isLive c with
      | true =>
        simp only [hlive, if_true] at h
        cases h
        exact .found hcall hkept hlive
      | false =>
        simp only [hlive, if_false, Bool.false_eq_true] at h
        cases h
        exact .evicted hcall hkept hlive
  · cases h

theorem step_of_adopt {r r' : Race} {call : Nat} (h : r.step? (.adopt call) = some r') :
  Step r (.adopt call) r'
  := by
  rw [step?] at h
  split at h
  · next address fresh hcall =>
    rw [Pool.adopt] at h
    cases hkept : r.pool.get? address with
    | none =>
      rw [hkept] at h
      cases h
      exact .adopted hcall hkept
    | some other =>
      rw [hkept] at h
      cases hlive : r.pool.isLive other with
      | true =>
        simp only [hlive, if_true] at h
        cases h
        exact .yielded hcall hkept hlive
      | false =>
        simp only [hlive, if_false, Bool.false_eq_true] at h
        cases h
        exact .replaced hcall hkept hlive
  · cases h

/-- Whatever happens in a race is one of the rules. -/
theorem step_of_step? {r r' : Race} {event : Event} (h : r.step? event = some r') :
  Step r event r'
  := by
  cases event with
  | come address =>
    cases h
    exact .come address
  | look call => exact step_of_look h
  | connected call =>
    rw [step?] at h
    split at h
    · next address hcall =>
      cases h
      exact .connected hcall
    · cases h
  | refused call =>
    rw [step?] at h
    split at h
    · next address hcall =>
      cases h
      exact .refused hcall
    · cases h
  | adopt call => exact step_of_adopt h
  | peerCloses connection =>
    rw [step?] at h
    split at h
    · next hopened =>
      cases h
      exact .peerCloses hopened
    · cases h
  | shut =>
    cases h
    exact .shut

/-! ### What calls hold -/

/-- The connections that calls have opened and not adopted, with their addresses. -/
def held (r : Race) : List (String × Nat) := r.getters.filterMap Getter.held

theorem filterMap_cons_eq_append {α β : Type} (f : α → Option β) (a : α) (as : List α) :
  (a :: as).filterMap f = (f a).toList ++ as.filterMap f
  := by
  rw [List.filterMap_cons]
  cases f a <;> rfl

/-- When one of a list is changed, what it gave is replaced by what it gives. -/
theorem filterMap_modify_perm
    {α β : Type} (f : α → Option β) (g : α → α) {as : List α} {i : Nat} {a : α}
    (h : as[i]? = some a) :
  ((f a).toList ++ (as.modify i g).filterMap f).Perm ((f (g a)).toList ++ as.filterMap f)
  := by
  induction as generalizing i with
  | nil => cases h
  | cons b as ih =>
    cases i with
    | zero =>
      cases h
      rw [List.modify_zero_cons, filterMap_cons_eq_append, filterMap_cons_eq_append]
      apply List.perm_append_comm_assoc
    | succ i =>
      rw [List.modify_succ_cons, filterMap_cons_eq_append, filterMap_cons_eq_append]
      apply (List.perm_append_comm_assoc _ _ _).trans
      apply ((ih h).append_left _).trans
      apply List.perm_append_comm_assoc

theorem held_advance
    {r : Race} {call : Nat} {address : String} {before : Progress}
    (h : r.getters[call]? = some ⟨address, before⟩) (after : Progress) (pool : Pool) :
  ((Getter.held ⟨address, before⟩).toList ++ (r.advance call after pool).held).Perm
    ((Getter.held ⟨address, after⟩).toList ++ r.held)
  :=
  filterMap_modify_perm Getter.held (fun g => { g with progress := after }) h

theorem getElem?_advance (r : Race) (call : Nat) (after : Progress) (pool : Pool) (j : Nat) :
  (r.advance call after pool).getters[j]?
    = if call = j then r.getters[j]?.map fun g => { g with progress := after }
      else r.getters[j]?
  := by
  rw [advance, List.getElem?_modify]
  split
  · rfl
  · exact Option.map_id_apply

theorem mem_held {r : Race} {call : Nat} {address : String} {c : Nat}
    (h : r.getters[call]? = some ⟨address, .holding c⟩) :
  (address, c) ∈ r.held
  :=
  List.mem_filterMap.mpr ⟨_, List.mem_of_getElem? h, rfl⟩

/-- A call that does not hold a connection afterwards is not one of those that hold one. -/
theorem holding_of_advance
    {r : Race} {call : Nat} {address : String} {after : Progress} {pool : Pool}
    (hafter : Getter.held ⟨address, after⟩ = none) {j : Nat} {a : String} {c : Nat}
    (h : (r.advance call after pool).getters[j]? = some ⟨a, .holding c⟩) :
  r.getters[j]? = some ⟨a, .holding c⟩
  := by
  rw [getElem?_advance] at h
  split at h
  · obtain ⟨g, -, hg⟩ := Option.map_eq_some_iff.mp h
    cases hg
    cases hafter
  · exact h

theorem address_advance (r : Race) (call : Nat) (after : Progress) (pool : Pool) (j : Nat) :
  (r.advance call after pool).getters[j]?.map Getter.address = r.getters[j]?.map Getter.address
  := by
  rw [getElem?_advance]
  split
  · rw [Option.map_map]
    rfl
  · rfl

end Race

end StreamCall.Client
