import StreamCall.Proofs.Client.Ledger

/-!
# Calls to one address agree

Any number of calls may open connections to one address at the same time.  As long as nobody else
closes a live connection for the address, all of them get the same connection
(`Race.getters_agree`): it is the one that is kept, it is alive, and the others that were opened
have been given up and closed.  Calls to other addresses make no difference.
-/

namespace StreamCall.Client

namespace Race

/-- Whether an event closes no live connection for an address.  A client that has been closed
closes a connection as soon as it is opened. -/
def Spares (address : String) (r : Race) : Event → Prop
  | .connected call =>
    r.pool.isShut = true → r.getters[call]?.map Getter.address ≠ some address
  | .peerCloses c => (address, c) ∈ r.served → r.pool.isLive c = false
  | .shut => ∀ e ∈ r.served, e.1 = address → r.pool.isLive e.2 = false
  | _ => True

/-- Whether none of some events closes a live connection for an address. -/
def SparesAlways (address : String) (r : Race) : List Event → Prop
  | [] => True
  | event :: rest => r.Spares address event ∧ ∀ r' ∈ r.step? event, r'.SparesAlways address rest

instance (address : String) (r : Race) (event : Event) : Decidable (r.Spares address event) :=
  match event with
  | .connected _ => inferInstanceAs (Decidable (_ → _))
  | .peerCloses _ => inferInstanceAs (Decidable (_ → _))
  | .shut => inferInstanceAs (Decidable (∀ e ∈ r.served, _))
  | .come _ | .look _ | .refused _ | .adopt _ => .isTrue trivial

instance SparesAlways.decide (address : String) :
    (r : Race) → (events : List Event) → Decidable (r.SparesAlways address events)
  | _, [] => .isTrue trivial
  | r, event :: rest =>
    have := fun r' => SparesAlways.decide address r' rest
    inferInstanceAs (Decidable (r.Spares address event
      ∧ ∀ r' ∈ r.step? event, r'.SparesAlways address rest))

end Race

/-! ### Steps -/

namespace Pool

theorem isLive_close {p : Pool} {c d : Nat} :
  (p.close c).isLive d = true ↔ d ≠ c ∧ p.isLive d = true
  := by
  simp [isLive, close]

theorem isLive_establish_of_ne {p : Pool} {c : Nat} (h : c ≠ p.dials) :
  p.establish.2.isLive c = p.isLive c
  := by
  rw [isLive, isLive, establish]
  cases p.isShut <;> simp [h]

/-- A connection that is opened is alive, unless the client has been closed. -/
theorem isLive_establish
    {p : Pool} (hopen : p.isShut = false) (hclosed : ∀ c ∈ p.closed, c < p.dials) :
  p.establish.2.isLive p.dials = true
  := by
  have hnew : p.dials ∉ p.closed := fun hmem => Nat.lt_irrefl _ (hclosed _ hmem)
  simp [isLive, establish, hopen, hnew]

end Pool

namespace Race

variable {r r' : Race}

theorem mem_held_advance
    {call : Nat} {address : String} {before : Progress}
    (h : r.getters[call]? = some ⟨address, before⟩) {after : Progress} {pool : Pool}
    {e : String × Nat} (he : e ∈ (r.advance call after pool).held) :
  Getter.held ⟨address, after⟩ = some e ∨ e ∈ r.held
  := by
  have hmem := (held_advance h after pool).mem_iff.mp (List.mem_append_right _ he)
  obtain hnew | hold := List.mem_append.mp hmem
  · exact .inl (Option.mem_toList.mp hnew)
  · exact .inr hold

theorem mem_getters_advance
    {call : Nat} {address : String} {before : Progress}
    (h : r.getters[call]? = some ⟨address, before⟩) {after : Progress} {pool : Pool} {g : Getter}
    (hg : g ∈ (r.advance call after pool).getters) :
  g = ⟨address, after⟩ ∨ g ∈ r.getters
  := by
  obtain ⟨j, hj⟩ := List.mem_iff_getElem?.mp hg
  rw [getElem?_advance] at hj
  split at hj
  · next heq =>
    subst heq
    rw [h] at hj
    cases hj
    exact .inl rfl
  · exact .inr (List.mem_of_getElem? hj)

/-- A call that gets no connection in a step had it before. -/
theorem got_of_advance
    {call : Nat} {address : String} {before : Progress}
    (h : r.getters[call]? = some ⟨address, before⟩) {after : Progress} {pool : Pool} {a : String}
    {c : Nat} (hg : ⟨a, .got c⟩ ∈ (r.advance call after pool).getters) (hafter : after ≠ .got c) :
  ⟨a, .got c⟩ ∈ r.getters
  := by
  obtain hnew | hold := mem_getters_advance h hg
  · exact absurd (congrArg Getter.progress hnew).symm hafter
  · exact hold

/-- What is served once a call has got further was served before, if the call holds nothing new. -/
theorem served_advance
    {call : Nat} {address : String} {before after : Progress}
    (h : r.getters[call]? = some ⟨address, before⟩)
    (hafter : Getter.held ⟨address, after⟩ = none) {pool : Pool}
    (hkept : ∀ e ∈ pool.kept, e ∈ r.served) {e : String × Nat}
    (he : e ∈ (r.advance call after pool).served) :
  e ∈ r.served
  := by
  obtain he | he := List.mem_append.mp he
  · exact hkept e he
  · obtain hnew | hold := mem_held_advance h he
    · rw [hafter] at hnew
      cases hnew
    · exact List.mem_append_right _ hold

/-- What is served after a step was served before, unless the step has opened it. -/
theorem served_of_step
    {event : Event} (hstep : Step r event r') {e : String × Nat} (he : e ∈ r'.served) :
  e ∈ r.served ∨ e.2 = r.pool.dials
    ∧ ∃ call, event = .connected call ∧ r.getters[call]?.map Getter.address = some e.1
  := by
  have hkept : ∀ e ∈ r.pool.kept, e ∈ r.served := fun _ => List.mem_append_left _
  cases hstep with
  | come address =>
    have hheld : held { r with getters := r.getters ++ [⟨address, .looking⟩] } = r.held := by
      simp [held, Getter.held]
    rw [served, hheld] at he
    exact .inl he
  | found looking _ _ => exact .inl (served_advance looking rfl hkept he)
  | missed looking _ => exact .inl (served_advance looking rfl hkept he)
  | evicted looking _ _ =>
    exact .inl (served_advance looking rfl (fun e he => hkept e (Pool.mem_without.mp he).1) he)
  | @connected call address dialing =>
    obtain he | he := List.mem_append.mp he
    · exact .inl (hkept e he)
    · obtain hnew | hold := mem_held_advance dialing he
      · cases hnew
        refine .inr ⟨rfl, call, rfl, ?_⟩
        rw [dialing]
        rfl
      · exact .inl (List.mem_append_right _ hold)
  | refused dialing => exact .inl (served_advance dialing rfl hkept he)
  | adopted holding _ =>
    refine .inl (served_advance holding rfl ?_ he)
    exact List.forall_mem_cons.mpr ⟨List.mem_append_right _ (mem_held holding), hkept⟩
  | yielded holding _ _ => exact .inl (served_advance holding rfl hkept he)
  | replaced holding _ _ =>
    refine .inl (served_advance holding rfl ?_ he)
    exact List.forall_mem_cons.mpr ⟨List.mem_append_right _ (mem_held holding),
      fun e he => hkept e (Pool.mem_without.mp he).1⟩
  | peerCloses _ => exact .inl he
  | shut => exact .inl (List.mem_append_right _ he)

/-- What a call has got after a step it had before, or it is kept now and was served. -/
theorem got_of_step
    {event : Event} (hstep : Step r event r') {address : String} {c : Nat}
    (hgot : ⟨address, .got c⟩ ∈ r'.getters) :
  ⟨address, .got c⟩ ∈ r.getters
  ∨ (address, c) ∈ r'.pool.kept ∧ (address, c) ∈ r.served
    ∧ (r.pool.isLive c = true ∨ (address, c) ∈ r.held)
  := by
  cases hstep with
  | come a =>
    obtain hold | hnew := List.mem_append.mp hgot
    · exact .inl hold
    · cases List.mem_singleton.mp hnew
  | found looking kept live =>
    obtain hnew | hold := mem_getters_advance looking hgot
    · cases hnew
      have hmem := Pool.mem_of_get? kept
      exact .inr ⟨hmem, List.mem_append_left _ hmem, .inl live⟩
    · exact .inl hold
  | missed looking _ => exact .inl (got_of_advance looking hgot nofun)
  | evicted looking _ _ => exact .inl (got_of_advance looking hgot nofun)
  | connected dialing => exact .inl (got_of_advance dialing hgot nofun)
  | refused dialing => exact .inl (got_of_advance dialing hgot nofun)
  | adopted holding _ =>
    obtain hnew | hold := mem_getters_advance holding hgot
    · cases hnew
      have hheld := mem_held holding
      exact .inr ⟨List.mem_cons_self, List.mem_append_right _ hheld, .inr hheld⟩
    · exact .inl hold
  | yielded holding kept live =>
    obtain hnew | hold := mem_getters_advance holding hgot
    · cases hnew
      have hmem := Pool.mem_of_get? kept
      exact .inr ⟨hmem, List.mem_append_left _ hmem, .inl live⟩
    · exact .inl hold
  | replaced holding _ _ =>
    obtain hnew | hold := mem_getters_advance holding hgot
    · cases hnew
      have hheld := mem_held holding
      exact .inr ⟨List.mem_cons_self, List.mem_append_right _ hheld, .inr hheld⟩
    · exact .inl hold
  | peerCloses _ => exact .inl hgot
  | shut => exact .inl hgot

variable {l : Ledger} {p : Pool} {event : Event} {address : String} {c : Nat}

/-- A live connection for an address stays in the pool if the event spares the address. -/
theorem kept_of_step
    (h : l.Balances p r) (hstep : Step r event r') (hspares : r.Spares address event)
    (hkept : (address, c) ∈ r.pool.kept) (hlive : r.pool.isLive c = true) :
  (address, c) ∈ r'.pool.kept
  := by
  have hwithout : ∀ a d, r.pool.get? a = some d → r.pool.isLive d = false →
      (address, c) ∈ r.pool.without a := by
    intro a d hget hdead
    refine Pool.mem_without.mpr ⟨hkept, ?_⟩
    rintro rfl
    have hsame := ((Pool.get?_eq_some_iff h.addresses).mpr hkept).symm.trans hget
    cases hsame
    rw [hlive] at hdead
    cases hdead
  cases hstep with
  | evicted _ kept dead => exact hwithout _ _ kept dead
  | adopted _ _ => exact List.mem_cons_of_mem _ hkept
  | replaced _ kept dead => exact List.mem_cons_of_mem _ (hwithout _ _ kept dead)
  | shut =>
    have hdead := hspares (address, c) (List.mem_append_left _ hkept) rfl
    rw [hlive] at hdead
    cases hdead
  | _ => exact hkept

/-- A live connection for an address stays alive as long as it is kept or held, if the event spares
the address. -/
theorem live_of_step
    (h : l.Balances p r) (hp : p.Sound) (hstep : Step r event r')
    (hspares : r.Spares address event) (hserved : (address, c) ∈ r.served)
    (hlive : r.pool.isLive c = true) (hserved' : (address, c) ∈ r'.served) :
  r'.pool.isLive c = true
  := by
  cases hstep with
  | connected _ =>
    have hlt : c < r.pool.dials := h.served_lt hp hserved
    exact (Pool.isLive_establish_of_ne (Nat.ne_of_lt hlt)).trans hlive
  | @yielded call a fresh other holding _ _ =>
    have hne : c ≠ fresh := (h.giveUp hp holding other).served_ne_gone hp hserved'
      ((l.gone_giveUp _).mem_iff.mpr List.mem_cons_self)
    exact Pool.isLive_close.mpr ⟨hne, hlive⟩
  | peerCloses _ =>
    apply Pool.isLive_close.mpr
    refine ⟨?_, hlive⟩
    rintro rfl
    have hdead := hspares hserved
    rw [hlive] at hdead
    cases hdead
  | shut =>
    have hdead := hspares (address, c) hserved rfl
    rw [hlive] at hdead
    cases hdead
  | _ => exact hlive

end Race

/-! ### Runs -/

/-- What a call holds was not in the pool at the beginning. -/
theorem Ledger.Balances.not_initial
    {l : Ledger} {p : Pool} {r : Race} (h : l.Balances p r) (hp : p.Sound) {e : String × Nat}
    (he : e ∈ r.held) :
  e ∉ p.kept
  := by
  intro hinitial
  obtain ⟨g, hg, hholding⟩ := List.mem_filterMap.mp he
  obtain ⟨j, hj⟩ := List.mem_iff_getElem?.mp hg
  rw [Getter.eq_of_held hholding] at hj
  have hle : p.dials ≤ e.2 := h.le_of_opened (h.holders j _ _ hj)
  have hlt := hp.kept_lt e hinitial
  omega

/-- Whether the connections for an address are as they should be when nobody has closed a live one:
those that the pool began with aside, they are alive as long as they are kept or held, and none has
been evicted or drained. -/
structure Ledger.Agrees (l : Ledger) (p : Pool) (address : String) (r : Race) : Prop where
  served : ∀ c, (address, c) ∈ r.served → r.pool.isLive c = true ∨ (address, c) ∈ p.kept
  got : ∀ c, ⟨address, .got c⟩ ∈ r.getters →
    (address, c) ∈ r.pool.kept ∧ r.pool.isLive c = true
  out : ∀ c, (address, c) ∈ l.evicted ++ l.drained → (address, c) ∈ p.kept

namespace Ledger.Agrees

variable {l : Ledger} {p : Pool} {r r' : Race} {event : Race.Event} {address : String}

theorem idle (p : Pool) (address : String) :
  blank.Agrees p address (.idle p)
  := by
  constructor
  · intro c hc
    obtain hc | hc := List.mem_append.mp hc
    · exact .inr hc
    · cases hc
  · intro c hc
    cases hc
  · intro c hc
    cases hc

/-- What a step enters as taken out of the pool it has taken out. -/
theorem mem_enter
    (l : Ledger) (r : Race) (event : Race.Event) (r' : Race) {e : String × Nat}
    (he : e ∈ (l.enter r event r').evicted ++ (l.enter r event r').drained) :
  e ∈ l.evicted ++ l.drained ∨ e ∈ r.pool.dropped r'.pool
  := by
  cases event with
  | look _ | adopt _ | shut =>
    simp only [enter, List.mem_append] at he ⊢
    tauto
  | _ => exact .inl he

theorem step
    (h : l.Agrees p address r) (hbalances : l.Balances p r) (hp : p.Sound)
    (hstep : Race.Step r event r') (hspares : r.Spares address event) :
  (l.enter r event r').Agrees p address r'
  := by
  constructor
  · intro c hc
    obtain hserved | ⟨rfl, call, rfl, hcaller⟩ := Race.served_of_step hstep hc
    · obtain hlive | hinitial := h.served c hserved
      · exact .inl (Race.live_of_step hbalances hp hstep hspares hserved hlive hc)
      · exact .inr hinitial
    · have hopen : r.pool.isShut = false := by
        cases hshut : r.pool.isShut with
        | false => rfl
        | true => exact absurd hcaller (hspares hshut)
      cases hstep
      exact .inl (Pool.isLive_establish hopen hbalances.closed_lt)
  · intro c hgot
    obtain hold | ⟨hkept, hserved, hnew⟩ := Race.got_of_step hstep hgot
    · obtain ⟨hkept, hlive⟩ := h.got c hold
      have hkept' := Race.kept_of_step hbalances hstep hspares hkept hlive
      use hkept'
      exact Race.live_of_step hbalances hp hstep hspares (List.mem_append_left _ hkept) hlive
        (List.mem_append_left _ hkept')
    · have hlive : r.pool.isLive c = true := by
        obtain hlive | hheld := hnew
        · exact hlive
        · exact (h.served c hserved).resolve_right (hbalances.not_initial hp hheld)
      use hkept
      exact Race.live_of_step hbalances hp hstep hspares hserved hlive
        (List.mem_append_left _ hkept)
  · intro c hc
    obtain hold | hdropped := mem_enter l r event r' hc
    · exact h.out c hold
    · obtain ⟨hkept, hgone⟩ := List.mem_filter.mp hdropped
      obtain hlive | hinitial := h.served c (List.mem_append_left _ hkept)
      · have hstill := Race.kept_of_step hbalances hstep hspares hkept hlive
        exact absurd hstill (of_decide_eq_true hgone)
      · exact hinitial

theorem run
    (h : l.Agrees p address r) (hbalances : l.Balances p r) (hp : p.Sound)
    {events : List Race.Event} (hrun : r.run? events = some r')
    (hspares : r.SparesAlways address events) :
  (l.after r events).Agrees p address r'
  := by
  induction events generalizing l r with
  | nil =>
    cases hrun
    exact h
  | cons event events ih =>
    obtain ⟨r₁, hfirst, hrest⟩ := Option.bind_eq_some_iff.mp hrun
    have hstep := Race.step_of_step? hfirst
    rw [after, hfirst]
    exact ih (h.step hbalances hp hstep hspares.1) (hbalances.step hp hstep) hrest
      (hspares.2 r₁ hfirst)

end Ledger.Agrees

namespace Race

/-- As long as nobody else closes a live connection for an address, all calls to the address that
succeed get the same connection.  It is kept and alive.  The others that they have opened are
given up and closed once their calls are through. -/
theorem getters_agree
    {p : Pool} (hp : p.Sound) {events : List Event} {r : Race}
    (hrun : (idle p).run? events = some r) {address : String}
    (hspares : (idle p).SparesAlways address events) :
  (∀ c d, ⟨address, .got c⟩ ∈ r.getters → ⟨address, .got d⟩ ∈ r.getters → c = d)
  ∧ (∀ c, ⟨address, .got c⟩ ∈ r.getters →
      r.pool.get? address = some c ∧ r.pool.isLive c = true)
  ∧ (∀ o ∈ (Ledger.blank.after (idle p) events).opened, o.address = address →
      (∃ c, r.getters[o.call]? = some ⟨address, .got c⟩) →
      r.pool.get? address ≠ some o.connection →
      o.entry ∈ (Ledger.blank.after (idle p) events).duplicates
        ∧ r.pool.isLive o.connection = false)
  := by
  have hbalances := (Ledger.Balances.idle hp).run hp hrun
  have hagrees := (Ledger.Agrees.idle p address).run (Ledger.Balances.idle hp) hp hrun hspares
  have hkept : ∀ c, ⟨address, .got c⟩ ∈ r.getters → r.pool.get? address = some c := fun c hc =>
    (Pool.get?_eq_some_iff hbalances.addresses).mpr (hagrees.got c hc).1
  refine ⟨?_, fun c hc => ⟨hkept c hc, (hagrees.got c hc).2⟩, ?_⟩
  · intro c d hc hd
    exact Option.some_inj.mp ((hkept c hc).symm.trans (hkept d hd))
  · rintro o ho rfl ⟨c, hgot⟩ hother
    have hnew : o.entry ∉ p.kept := by
      intro hinitial
      have hle := hbalances.le_of_opened ho
      have hlt : o.connection < p.dials := hp.kept_lt _ hinitial
      omega
    obtain hin | hholding | hgone := hbalances.opened_cases ho
    · exact absurd ((Pool.get?_eq_some_iff hbalances.addresses).mpr hin) hother
    · rw [hgot] at hholding
      cases hholding
    · refine ⟨?_, hbalances.dead _ hgone⟩
      obtain hevicted | hgone := List.mem_append.mp hgone
      · exact absurd (hagrees.out _ (List.mem_append_left _ hevicted)) hnew
      · obtain hduplicate | hdrained := List.mem_append.mp hgone
        · exact hduplicate
        · exact absurd (hagrees.out _ (List.mem_append_right _ hdrained)) hnew

/-- A pool in which a closed connection is kept for the address `a`. -/
def stale : Pool := ⟨[("a", 0)], [0], 1, 0, false⟩

/-- One call to `a` evicts the closed connection.  It and two others open connections, while a call
to `b` gets one that its peer closes. -/
def scramble : List Event :=
  [.come "a", .come "a", .come "b", .come "a", .look 0, .look 2, .look 1, .look 3, .connected 1,
    .connected 2, .connected 0, .adopt 2, .peerCloses 2, .refused 3, .adopt 0, .adopt 1]

/-- What the scramble leaves. -/
def scrambled : Race :=
  { pool :=
      { kept := [("a", 3), ("b", 2)], closed := [1, 2, 0], dials := 4, evictions := 1
        isShut := false }
    getters := [⟨"a", .got 3⟩, ⟨"a", .got 3⟩, ⟨"b", .got 2⟩, ⟨"a", .failed⟩] }

theorem stale_sound :
  stale.Sound
  := by
  constructor <;> decide

/-- The two calls to `a` that succeed get the same connection, and the other one is closed. -/
theorem getters_agree_scrambled :
  stale.Sound
  ∧ (idle stale).run? scramble = some scrambled
  ∧ (idle stale).SparesAlways "a" scramble
  ∧ scrambled.pool.get? "a" = some 3 ∧ scrambled.pool.isLive 3 = true
  ∧ ("a", 1) ∈ (Ledger.blank.after (idle stale) scramble).duplicates
  ∧ scrambled.pool.isLive 1 = false
  := by
  have hrun : (idle stale).run? scramble = some scrambled := by decide
  have hspares : (idle stale).SparesAlways "a" scramble := by decide
  obtain ⟨-, hgot, hothers⟩ := getters_agree stale_sound hrun hspares
  have hopened : ⟨1, "a", 1⟩ ∈ (Ledger.blank.after (idle stale) scramble).opened := by decide
  obtain ⟨hkept, hlive⟩ := hgot 3 (by decide)
  exact ⟨stale_sound, hrun, hspares, hkept, hlive,
    hothers _ hopened rfl ⟨3, rfl⟩ (by decide)⟩

end Race

end StreamCall.Client
