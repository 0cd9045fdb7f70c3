import StreamCall.Proofs.Client.Turns

/-!
# What holds throughout a crowd

The roots of different calls are apart (`Rooted`), so a call that uses its own tokens only cannot
cancel another one.  At most one connection is kept, and the calls that have opened others each
hold their own (`Connected`).  Both hold whatever happens (`Crowd.Sound.step`, which goes through
the four rules of `Crowd.Step`), as long as the handlers that are installed are local.
-/

namespace StreamCall.Client

variable {ν α : Type}

/-! ### Tokens apart -/

theorem of_getElem?_set
    {as : List α} {i j : Nat} {a b : α} (h : (as.set i a)[j]? = some b) :
  (j = i ∧ b = a) ∨ (j ≠ i ∧ as[j]? = some b)
  := by
  rw [List.getElem?_set] at h
  split at h
  · next hij =>
    split at h
    · cases h
      exact .inl ⟨hij.symm, rfl⟩
    · cases h
  · next hij => exact .inr ⟨Ne.symm hij, h⟩

theorem of_getElem?_concat {as : List α} {j : Nat} {a b : α} (h : (as ++ [a])[j]? = some b) :
  (j = as.length ∧ b = a) ∨ (j < as.length ∧ as[j]? = some b)
  := by
  rw [List.getElem?_append] at h
  split at h
  · next hlt => exact .inr ⟨hlt, h⟩
  · next hle =>
    have hj : j - as.length = 0 := by
      by_contra hne
      rw [List.getElem?_eq_none (by simp only [List.length_singleton]; omega)] at h
      cases h
    rw [hj] at h
    cases h
    exact .inl ⟨by omega, rfl⟩

/-- Whether the tokens that have been given out are known, no call owns the token above those of
accepted streams, and different calls have tokens apart. -/
structure Rooted (calls : List (Call ν)) (token : Token) (next : Nat) : Prop where
  token_lt : ∀ n ∈ token.path, n < next
  root_lt : ∀ (i : Nat) m, calls[i]? = some m → ∀ root ∈ m.roots, ∀ n ∈ root.path, n < next
  free : ∀ (i : Nat) m, calls[i]? = some m → ∀ root ∈ m.roots, ¬ root.IsOver token
  apart : ∀ (i j : Nat) m m', calls[i]? = some m → calls[j]? = some m' → i ≠ j →
    ∀ root ∈ m.roots, ∀ root' ∈ m'.roots, root.Apart root'

namespace Rooted

variable {calls : List (Call ν)} {token : Token} {next next' : Nat}

/-- A fresh token is apart from one that is not over the token it was made from. -/
theorem apart_fresh
    {path : List Nat} {root : Token} (hlt : ∀ n ∈ root.path, n < next)
    (hfree : ¬ root.path <:+ path) :
  Token.Apart ⟨next :: path⟩ root
  := by
  constructor
  · intro hover
    have hmem : next ∈ root.path := hover.subset List.mem_cons_self
    exact Nat.lt_irrefl next (hlt next hmem)
  · intro hunder
    cases List.suffix_cons_iff.mp hunder with
    | inl heq =>
      have hmem : next ∈ root.path := heq ▸ List.mem_cons_self
      exact Nat.lt_irrefl next (hlt next hmem)
    | inr hsuffix => exact hfree hsuffix

theorem mono (h : Rooted calls token next) (hle : next ≤ next') :
  Rooted calls token next'
  where
  token_lt := fun n hn => Nat.lt_of_lt_of_le (h.token_lt n hn) hle
  root_lt := fun i m hm root hroot n hn => Nat.lt_of_lt_of_le (h.root_lt i m hm root hroot n hn) hle
  free := h.free
  apart := h.apart

/-- A call may get the fresh token of its stream. -/
theorem move
    (h : Rooted calls token next) {i : Nat} {m m' : Call ν} (hm : calls[i]? = some m)
    (hle : next ≤ next')
    (hroots : ∀ root ∈ m'.roots, root ∈ m.roots ∨ root = ⟨next :: token.path⟩ ∧ next < next') :
  Rooted (calls.set i m') token next'
  := by
  have hapart : ∀ (j : Nat) x, j ≠ i → calls[j]? = some x → ∀ root ∈ m'.roots, ∀ root' ∈ x.roots,
      root.Apart root' := by
    intro j x hji hx root hroot root' hroot'
    rcases hroots root hroot with hold | ⟨rfl, -⟩
    · exact h.apart i j m x hm hx hji.symm root hold root' hroot'
    · exact apart_fresh (h.root_lt j x hx root' hroot') (h.free j x hx root' hroot')
  constructor
  · exact fun n hn => Nat.lt_of_lt_of_le (h.token_lt n hn) hle
  · intro j x hx root hroot n hn
    obtain ⟨-, rfl⟩ | ⟨-, hx⟩ := of_getElem?_set hx
    · rcases hroots root hroot with hold | ⟨rfl, hlt⟩
      · exact Nat.lt_of_lt_of_le (h.root_lt i m hm root hold n hn) hle
      · cases List.mem_cons.mp hn with
        | inl heq => exact heq ▸ hlt
        | inr hn => exact Nat.lt_of_lt_of_le (h.token_lt n hn) hle
    · exact Nat.lt_of_lt_of_le (h.root_lt j x hx root hroot n hn) hle
  · intro j x hx root hroot hover
    obtain ⟨-, rfl⟩ | ⟨-, hx⟩ := of_getElem?_set hx
    · rcases hroots root hroot with hold | ⟨rfl, -⟩
      · exact h.free i m hm root hold hover
      · have hlength := hover.length_le
        rw [List.length_cons] at hlength
        omega
    · exact h.free j x hx root hroot hover
  · intro j k x y hx hy hjk root hroot root' hroot'
    obtain ⟨rfl, rfl⟩ | ⟨hji, hx'⟩ := of_getElem?_set hx
    · obtain ⟨rfl, -⟩ | ⟨hki, hy⟩ := of_getElem?_set hy
      · exact absurd rfl hjk
      · exact hapart k y hki hy root hroot root' hroot'
    · obtain ⟨-, rfl⟩ | ⟨hki, hy⟩ := of_getElem?_set hy
      · exact (hapart j x hji hx' root' hroot' root hroot).symm
      · exact h.apart j k x y hx' hy hjk root hroot root' hroot'

/-- A call may come whose only root is fresh. -/
theorem come
    (h : Rooted calls token next) {m : Call ν} (hlt : next < next')
    (hroots : ∀ root ∈ m.roots, root = ⟨[next]⟩) :
  Rooted (calls ++ [m]) token next'
  := by
  have hapart : ∀ (j : Nat) x, calls[j]? = some x → ∀ root ∈ m.roots, ∀ root' ∈ x.roots,
      root.Apart root' := by
    intro j x hx root hroot root' hroot'
    obtain rfl := hroots root hroot
    apply apart_fresh (h.root_lt j x hx root' hroot')
    intro hnil
    exact h.free j x hx root' hroot' (hnil.trans (List.nil_suffix ..))
  constructor
  · exact fun n hn => Nat.lt_trans (h.token_lt n hn) hlt
  · intro j x hx root hroot n hn
    obtain ⟨-, rfl⟩ | ⟨-, hx⟩ := of_getElem?_concat hx
    · obtain rfl := hroots root hroot
      rw [List.mem_singleton.mp hn]
      exact hlt
    · exact Nat.lt_trans (h.root_lt j x hx root hroot n hn) hlt
  · intro j x hx root hroot hover
    obtain ⟨-, rfl⟩ | ⟨-, hx⟩ := of_getElem?_concat hx
    · obtain rfl := hroots root hroot
      have hmem : next ∈ token.path := hover.subset List.mem_cons_self
      exact Nat.lt_irrefl next (h.token_lt next hmem)
    · exact h.free j x hx root hroot hover
  · intro j k x y hx hy hjk root hroot root' hroot'
    obtain ⟨rfl, rfl⟩ | ⟨-, hx'⟩ := of_getElem?_concat hx
    · obtain ⟨rfl, -⟩ | ⟨-, hy⟩ := of_getElem?_concat hy
      · exact absurd rfl hjk
      · exact hapart k y hy root hroot root' hroot'
    · obtain ⟨-, rfl⟩ | ⟨-, hy⟩ := of_getElem?_concat hy
      · exact (hapart j x hx' root' hroot' root hroot).symm
      · exact h.apart j k x y hx' hy hjk root hroot root' hroot'

end Rooted

/-! ### Connections -/

namespace Call

/-- The connection that a call has opened and not adopted. -/
def held? (c : Call ν) : Option Nat :=
  match c.rest with
  | .step (.inr (.adopt _ connection)) _ => some connection
  | _ => none

/-- The connection on which a call is to get its stream. -/
def asked? (c : Call ν) : Option Nat :=
  match c.rest with
  | .step (.inr (.openStream connection)) _ => some connection
  | _ => none

/-- A call that has not looked for a connection has none, and one that has its stream needs none
any more. -/
theorem held?_of_departs {t : Token} {address : String} {c : Call ν}
    (h : Departs t address c.rest) :
  c.held? = none ∧ c.asked? = none
  := by
  rw [held?, asked?]
  generalize c.rest = rest at h
  cases h with
  | settled h =>
    cases rest with
    | done | panic => exact ⟨rfl, rfl⟩
    | step op next =>
      rcases op with op | op
      · exact ⟨rfl, rfl⟩
      · cases op with
        | adopt | openStream => cases h.1
        | sleep | yield | lookup | dial | onStream | collect => exact ⟨rfl, rfl⟩
  | preparing | looking => exact ⟨rfl, rfl⟩

/-- A call that has not looked for a connection is not opening one. -/
theorem isOpening_of_departs {t : Token} {address : String} {c : Call ν}
    (h : Departs t address c.rest) :
  c.isOpening = false
  := by
  rw [isOpening]
  generalize c.rest = rest at h
  cases h with
  | settled h =>
    cases rest with
    | done | panic => rfl
    | step op next =>
      rcases op with op | op
      · rfl
      · cases op with
        | dial | adopt => cases h.1
        | sleep | yield | lookup | openStream | onStream | collect => rfl
  | preparing | looking => rfl

variable {address : String} {c c' : Call ν} {s s' : Shared ν} {move : Move}

theorem close_isOpening
    (c : Call ν) (s : Shared ν) (ending : Outcome (Except ClientError Response)) :
  (c.close s ending).1.isOpening = false
  := by
  have hending : (c.close s ending).1.ending = some ending := by
    rw [close]
    split <;> rfl
  rw [isOpening, hending]
  split <;> rfl

/-- The connection that is kept is kept whatever a call does. -/
theorem Step.kept (h : Step address c s move c' s') {n : Nat} (hn : s.pool.get? address = some n) :
  s'.pool.get? address = some n
  := by
  cases h with
  | finishes | panics | timesOut | abandons =>
    rw [close_pool]
    exact hn
  | adopts going rest bare =>
    rw [bare] at hn
    cases hn
  | _ => exact hn

/-- Once a connection is kept, no call changes the pool but those that are opening others, and
none begins to. -/
theorem Step.pool_eq
    (hc : c.Sound address) (h : Step address c s move c' s') {n : Nat}
    (hn : s.pool.get? address = some n) (hopening : c.isOpening = false) :
  s'.pool = s.pool ∧ c'.isOpening = false
  := by
  have htrip := hc.trip
  have hgoing : ∀ {p}, c.ending = none → c.rest = p →
      isOpening { c with ending := none, rest := p } = false := by
    rintro _ going rfl
    rw [← going]
    exact hopening
  have hdeparts : ∀ {c' : Call ν}, Departs c.context.token address c'.rest →
      c'.isOpening = false := isOpening_of_departs
  -- Only a call that finds nothing kept begins to open a connection.
  cases h with
  | prepares going rest answered =>
    rw [rest] at htrip
    exact ⟨rfl, hdeparts (htrip.of_surroundings.2 _ (World.tells_of_answer answered))⟩
  | exchanges going rest | collects going rest | sleeps going rest | rests going rest =>
    rw [rest] at htrip
    exact ⟨rfl, hdeparts (.settled (htrip.of_network trivial _))⟩
  | finds going rest kept => exact ⟨rfl, rfl⟩
  | misses going rest bare =>
    rw [bare] at hn
    cases hn
  | fails going rest | connects going rest | adopts going rest | yields going rest =>
    cases hgoing going rest
  | opens going rest | strays going rest =>
    rw [rest] at htrip
    exact ⟨rfl, hdeparts (.settled (htrip.of_openStream _))⟩
  | finishes | panics | timesOut | abandons =>
    exact ⟨c.close_pool s _, c.close_isOpening s _⟩
  | cancelled | accepted | carriedThere | carriedBack | serves | releases | leaves =>
    exact ⟨rfl, hopening⟩

end Call

/-- Whether a connection is alive and not the one that is kept. -/
structure Pool.Spares (p : Pool) (address : String) (connection : Nat) : Prop where
  lt : connection < p.dials
  live : p.isLive connection = true
  not_kept : p.get? address ≠ some connection

/-- Whether calls hold connections of their own and use the one that is kept. -/
structure Connected (calls : List (Call ν)) (address : String) (pool : Pool) : Prop where
  serves : pool.Serves address
  spares : ∀ (i : Nat) m, calls[i]? = some m → ∀ n ∈ m.held?, pool.Spares address n
  held_inj : ∀ (i j : Nat) m m', calls[i]? = some m → calls[j]? = some m' →
    ∀ n ∈ m.held?, n ∈ m'.held? → i = j
  asked : ∀ (i : Nat) m, calls[i]? = some m → ∀ n ∈ m.asked?, pool.get? address = some n

namespace Connected

variable {calls : List (Call ν)} {address : String} {pool pool' : Pool}

/-- A call gets further, and the pool changes. -/
theorem move
    (h : Connected calls address pool) {i : Nat} {m' : Call ν} (hserves : pool'.Serves address)
    (hspares : ∀ (j : Nat) x, j ≠ i → calls[j]? = some x → ∀ n ∈ x.held?, pool.Spares address n →
      pool'.Spares address n ∧ n ∉ m'.held?)
    (hkept : ∀ n, pool.get? address = some n → pool'.get? address = some n)
    (hheld : ∀ n ∈ m'.held?, pool'.Spares address n)
    (hasked : ∀ n ∈ m'.asked?, pool'.get? address = some n) :
  Connected (calls.set i m') address pool'
  := by
  constructor
  · exact hserves
  · intro j x hx n hn
    obtain ⟨-, rfl⟩ | ⟨hji, hx⟩ := of_getElem?_set hx
    · exact hheld n hn
    · exact (hspares j x hji hx n hn (h.spares j x hx n hn)).1
  · intro j k x y hx hy n hn hn'
    obtain ⟨rfl, rfl⟩ | ⟨hji, hx'⟩ := of_getElem?_set hx
    · obtain ⟨rfl, -⟩ | ⟨hki, hy⟩ := of_getElem?_set hy
      · rfl
      · exact absurd hn (hspares k y hki hy n hn' (h.spares k y hy n hn')).2
    · obtain ⟨-, rfl⟩ | ⟨-, hy⟩ := of_getElem?_set hy
      · exact absurd hn' (hspares j x hji hx' n hn (h.spares j x hx' n hn)).2
      · exact h.held_inj j k x y hx' hy n hn hn'
  · intro j x hx n hn
    obtain ⟨-, rfl⟩ | ⟨-, hx⟩ := of_getElem?_set hx
    · exact hasked n hn
    · exact hkept n (h.asked j x hx n hn)

/-- A call that opens no connection leaves the pool as it is. -/
theorem stay
    (h : Connected calls address pool) {i : Nat} {m m' : Call ν} (hm : calls[i]? = some m)
    (hheld : ∀ n ∈ m'.held?, n ∈ m.held?) (hasked : ∀ n ∈ m'.asked?, pool.get? address = some n) :
  Connected (calls.set i m') address pool
  := by
  apply h.move h.serves _ (fun _ h => h) (fun n hn => h.spares i m hm n (hheld n hn)) hasked
  intro j x hji hx n hn hspares
  refine ⟨hspares, ?_⟩
  intro hn'
  exact hji (h.held_inj j i x m hx hm n hn (hheld n hn'))

/-- A call opens a connection. -/
theorem connect
    (h : Connected calls address pool) {i : Nat} {m' : Call ν} (hheld : m'.held? = some pool.dials)
    (hasked : m'.asked? = none) :
  Connected (calls.set i m') address { pool with dials := pool.dials + 1 }
  := by
  have hdials : pool.isLive pool.dials = true := by
    rw [← Bool.not_eq_false, Pool.isLive_eq_false_iff]
    intro hclosed
    exact Nat.lt_irrefl _ (h.serves.closed_lt _ hclosed)
  apply h.move
  · exact ⟨h.serves.not_shut, fun c hc => Nat.lt_succ_of_lt (h.serves.closed_lt c hc),
      fun c hc => Nat.lt_succ_of_lt (h.serves.kept_lt c hc), h.serves.kept_live⟩
  · intro j x _ _ n _ hspares
    refine ⟨⟨Nat.lt_succ_of_lt hspares.lt, hspares.live, hspares.not_kept⟩, ?_⟩
    rw [hheld]
    rintro ⟨⟩
    exact Nat.lt_irrefl _ hspares.lt
  · exact fun n hn => hn
  · rw [hheld]
    rintro _ ⟨⟩
    refine ⟨Nat.lt_succ_self _, hdials, ?_⟩
    intro hkept
    exact Nat.lt_irrefl _ (h.serves.kept_lt _ hkept)
  · rw [hasked]
    rintro _ ⟨⟩

/-- A call adopts the connection that it holds. -/
theorem adopt
    (h : Connected calls address pool) {i : Nat} {m m' : Call ν} {n : Nat}
    (hm : calls[i]? = some m) (hn : m.held? = some n) (hbare : pool.get? address = none)
    (hheld : m'.held? = none) (hasked : m'.asked? = some n) :
  Connected (calls.set i m') address { pool with kept := (address, n) :: pool.kept }
  := by
  have hown := h.spares i m hm n hn
  have hget : Pool.get? { pool with kept := (address, n) :: pool.kept } address = some n := by
    simp [Pool.get?]
  apply h.move
  · refine ⟨h.serves.not_shut, h.serves.closed_lt, ?_, ?_⟩
    · rw [hget]
      rintro _ ⟨⟩
      exact hown.lt
    · rw [hget]
      rintro _ ⟨⟩
      exact hown.live
  · intro j x hji hx n' hn' hspares
    refine ⟨⟨hspares.lt, hspares.live, ?_⟩, ?_⟩
    · rw [hget]
      rintro ⟨⟩
      exact hji (h.held_inj j i x m hx hm n hn' hn)
    · rw [hheld]
      rintro ⟨⟩
  · intro n' hn'
    rw [hbare] at hn'
    cases hn'
  · rw [hheld]
    rintro _ ⟨⟩
  · rw [hasked]
    rintro _ ⟨⟩
    exact hget

/-- A call closes the connection that it holds for the one that is kept. -/
theorem yield
    (h : Connected calls address pool) {i : Nat} {m m' : Call ν} {n other : Nat}
    (hm : calls[i]? = some m) (hn : m.held? = some n) (hkept : pool.get? address = some other)
    (hheld : m'.held? = none) (hasked : m'.asked? = some other) :
  Connected (calls.set i m') address (pool.close n)
  := by
  have hown := h.spares i m hm n hn
  have hlive : ∀ k, k ≠ n → pool.isLive k = true → (pool.close n).isLive k = true := by
    intro k hk hlive
    simpa [Pool.isLive, Pool.close, hk] using hlive
  apply h.move
  · refine ⟨h.serves.not_shut, ?_, h.serves.kept_lt, ?_⟩
    · intro c hc
      cases List.mem_cons.mp hc with
      | inl heq => exact heq ▸ hown.lt
      | inr hc => exact h.serves.closed_lt c hc
    · intro c hc
      apply hlive c _ (h.serves.kept_live c hc)
      rintro rfl
      exact hown.not_kept hc
  · intro j x hji hx n' hn' hspares
    refine ⟨⟨hspares.lt, ?_, hspares.not_kept⟩, ?_⟩
    · apply hlive n' _ hspares.live
      rintro rfl
      exact hji (h.held_inj j i x m hx hm n' hn' hn)
    · rw [hheld]
      rintro ⟨⟩
  · exact fun n hn => hn
  · rw [hheld]
    rintro _ ⟨⟩
  · rw [hasked]
    rintro _ ⟨⟩
    exact hkept

/-- A call may come that has not looked for a connection. -/
theorem come
    (h : Connected calls address pool) {m : Call ν} (hheld : m.held? = none)
    (hasked : m.asked? = none) :
  Connected (calls ++ [m]) address pool
  := by
  constructor
  · exact h.serves
  · intro j x hx n hn
    obtain ⟨-, rfl⟩ | ⟨-, hx⟩ := of_getElem?_concat hx
    · rw [hheld] at hn
      cases hn
    · exact h.spares j x hx n hn
  · intro j k x y hx hy n hn hn'
    obtain ⟨-, rfl⟩ | ⟨-, hx⟩ := of_getElem?_concat hx
    · rw [hheld] at hn
      cases hn
    · obtain ⟨-, rfl⟩ | ⟨-, hy⟩ := of_getElem?_concat hy
      · rw [hheld] at hn'
        cases hn'
      · exact h.held_inj j k x y hx hy n hn hn'
  · intro j x hx n hn
    obtain ⟨-, rfl⟩ | ⟨-, hx⟩ := of_getElem?_concat hx
    · rw [hasked] at hn
      cases hn
    · exact h.asked j x hx n hn

/-- Whatever a call does leaves what is kept to those who use it. -/
theorem step
    {s s' : Shared ν} (h : Connected calls address s.pool) {i : Nat} {c c' : Call ν}
    (hm : calls[i]? = some c) (hc : c.Sound address) {move : Move}
    (hstep : Call.Step address c s move c' s') :
  Connected (calls.set i c') address s'.pool
  := by
  have htrip := hc.trip
  have hdeparts : ∀ {c' : Call ν}, Departs c.context.token address c'.rest →
      Connected (calls.set i c') address s.pool := by
    intro c' hdeparts
    obtain ⟨hheld, hasked⟩ := Call.held?_of_departs hdeparts
    apply h.stay hm
    · rw [hheld]
      rintro _ ⟨⟩
    · rw [hasked]
      rintro _ ⟨⟩
  have hsame : ∀ {c' : Call ν}, c'.rest = c.rest → Connected (calls.set i c') address s.pool := by
    intro c' hrest
    apply h.stay hm
    · rw [Call.held?, hrest]
      exact fun n hn => hn
    · rw [Call.asked?, hrest]
      exact h.asked i c hm
  cases hstep with
  | prepares going rest answered =>
    rw [rest] at htrip
    exact hdeparts (htrip.of_surroundings.2 _ (World.tells_of_answer answered))
  | exchanges going rest | collects going rest | sleeps going rest | rests going rest =>
    rw [rest] at htrip
    exact hdeparts (.settled (htrip.of_network trivial _))
  | finds going rest kept =>
    apply h.stay hm
    · rintro _ ⟨⟩
    · rintro _ ⟨⟩
      exact kept
  | misses going rest bare =>
    apply h.stay hm
    · rintro _ ⟨⟩
    · rintro _ ⟨⟩
  | fails going rest =>
    rw [rest] at htrip
    exact hdeparts (.settled (htrip.of_dialing.1 _))
  | connects going rest => exact h.connect rfl rfl
  | adopts going rest bare =>
    apply h.adopt hm _ bare rfl rfl
    rw [Call.held?, rest]
    rfl
  | yields going rest kept =>
    apply h.yield hm _ kept rfl rfl
    rw [Call.held?, rest]
    rfl
  | opens going rest | strays going rest =>
    rw [rest] at htrip
    exact hdeparts (.settled (htrip.of_openStream _))
  | finishes | panics | timesOut | abandons =>
    rw [Call.close_pool]
    exact hsame (c.close_rest s _)
  | cancelled | accepted | carriedThere | carriedBack | serves | releases | leaves =>
    exact hsame rfl

end Connected

/-! ### Crowds -/

namespace Crowd

/-- Whether the handler that is installed by an event, if there is one, is local. -/
def Event.IsLocal : Event ν → Prop
  | .upgrade handler => handler.IsLocal
  | _ => True

/-- Whether nothing in a crowd uses what is not its own. -/
structure Sound (c : Crowd ν) : Prop where
  trips : c.client.roundTrip.IsLocal
  wraps : ∀ handler : Handler ν, handler.IsLocal → (c.server.wrap handler).IsLocal
  installed : ∀ handler ∈ c.shared.handler, handler.IsLocal
  calls : ∀ (i : Nat) m, c.calls[i]? = some m → m.Sound c.address
  rooted : Rooted c.calls c.shared.token c.shared.world.tokens.next
  connected : Connected c.calls c.address c.shared.pool

variable {c c' : Crowd ν}

/-- What can happen in a crowd. -/
inductive Step (c : Crowd ν) : Event ν → Crowd ν → Prop where
  | upgrade (handler : Handler ν) :
    Step c (.upgrade handler)
      { c with shared := { c.shared with handler := some (c.server.wrap handler) } }
  | come {context : Context} {request : Request} (address : request.address = c.address) :
    Step c (.come context request)
      { c with
        calls := c.calls ++ [(c.newCall context request).1]
        shared := (c.newCall context request).2 }
  | pass {clock drawn next : Nat} (clock_le : c.shared.world.clock ≤ clock)
    (drawn_le : c.shared.world.drawn ≤ drawn) (next_le : c.shared.world.tokens.next ≤ next) :
    Step c (.pass clock drawn next)
      { c with shared := { c.shared with world := passed c.shared.world clock drawn next } }
  | move {i : Nat} {move : Move} {m m' : Call ν} {shared : Shared ν}
    (found : c.calls[i]? = some m) (moves : Call.Step c.address m c.shared move m' shared) :
    Step c (.move i move) { c with calls := c.calls.set i m', shared }

/-- Whatever happens in a crowd is one of the rules. -/
theorem Sound.step_of_step?
    (h : c.Sound) {event : Event ν} (hstep : c.step? event = some c') :
  Step c event c'
  := by
  cases event with
  | upgrade handler =>
    cases hstep
    exact .upgrade handler
  | come context request =>
    rw [step?] at hstep
    split at hstep
    · next address =>
      cases hstep
      exact .come address
    · cases hstep
  | pass clock drawn next =>
    rw [step?] at hstep
    dsimp only at hstep
    split at hstep
    · next hle =>
      cases hstep
      exact .pass hle.1 hle.2.1 hle.2.2
    · cases hstep
  | move i move =>
    obtain ⟨m, found, hstep⟩ := Option.bind_eq_some_iff.mp hstep
    obtain ⟨r, hr, rfl⟩ := Option.map_eq_some_iff.mp hstep
    exact .move found (Call.step_of_move? (h.calls i m found).trip h.connected.serves hr)

/-- A call that comes is sound. -/
theorem Sound.newCall
    (h : c.Sound) (ctx : Context) {request : Request} (haddress : request.address = c.address) :
  (c.newCall ctx request).1.Sound c.address
  := by
  refine ⟨Token.isOver_child .., ?_, ?_, ?_⟩
  · exact haddress ▸ .departing (h.trips (ctx.withToken _) request)
  · rintro _ ⟨⟩
  · rintro _ ⟨⟩

/-- Whatever happens in a crowd, nothing uses what is not its own. -/
theorem Sound.step
    (h : c.Sound) {event : Event ν} (hlocal : event.IsLocal) (hstep : c.step? event = some c') :
  c'.Sound
  := by
  cases h.step_of_step? hstep with
  | upgrade handler =>
    refine { h with installed := ?_ }
    rintro _ ⟨⟩
    exact h.wraps handler hlocal
  | @come ctx request address =>
    have hdeparts : Departs (c.newCall ctx request).1.context.token c.address
        (c.newCall ctx request).1.rest := address ▸ h.trips (ctx.withToken _) request
    obtain ⟨hheld, hasked⟩ := Call.held?_of_departs hdeparts
    refine ⟨h.trips, h.wraps, h.installed, ?_, ?_, h.connected.come hheld hasked⟩
    · intro i m hm
      obtain ⟨-, rfl⟩ | ⟨-, hm⟩ := of_getElem?_concat hm
      · exact h.newCall ctx address
      · exact h.calls i m hm
    · apply h.rooted.come (Nat.lt_succ_of_lt (Nat.lt_succ_self _))
      intro root hroot
      exact List.mem_singleton.mp hroot
  | pass _ _ next_le =>
    exact ⟨h.trips, h.wraps, h.installed, h.calls, h.rooted.mono next_le, h.connected⟩
  | @move i move m m' shared found moves =>
    have hgoes := Call.Goes.of_step (h.calls i m found) h.installed moves
    refine ⟨h.trips, h.wraps, ?_, ?_, ?_, h.connected.step found (h.calls i m found) moves⟩
    · exact hgoes.handler ▸ h.installed
    · intro j x hx
      obtain ⟨-, rfl⟩ | ⟨-, hx⟩ := of_getElem?_set hx
      · exact hgoes.sound
      · exact h.calls j x hx
    · rw [hgoes.token]
      exact h.rooted.move found hgoes.turns.next_le fun root hroot => hgoes.of_mem_roots hroot

theorem Sound.run
    (h : c.Sound) {events : List (Event ν)} (hlocal : ∀ event ∈ events, event.IsLocal)
    (hrun : c.run? events = some c') :
  c'.Sound
  := by
  induction events generalizing c with
  | nil =>
    cases hrun
    exact h
  | cons event events ih =>
    obtain ⟨d, hstep, hrun⟩ := Option.bind_eq_some_iff.mp hrun
    exact ih (h.step (hlocal event List.mem_cons_self) hstep)
      (fun event hevent => hlocal event (List.mem_cons_of_mem _ hevent)) hrun

end Crowd

end StreamCall.Client
