import StreamCall.Proofs.Client.Upkeep

/-!
# What stays throughout a run of a crowd

A stream that has been accepted stays with the handler that was installed then
(`Crowd.Sound.accepted_served`), and a connection that is kept stays the one that is kept
(`Crowd.Sound.kept_alive`).
-/

namespace StreamCall.Client

variable {ν : Type}

namespace Crowd

variable {c c' : Crowd ν} {i : Nat}

theorem run?_append (c : Crowd ν) (events events' : List (Event ν)) :
  c.run? (events ++ events') = (c.run? events).bind fun c => c.run? events'
  := by
  induction events generalizing c with
  | nil => rfl
  | cons event events ih =>
    rw [List.cons_append, run?, run?]
    cases c.step? event with
    | none => rfl
    | some c => exact ih c

/-! ### Streams that are served -/

/-- A stream that has been accepted stays with the handler that serves it. -/
theorem Sound.served_step
    (hc : c.Sound) {event : Event ν} (hstep : c.step? event = some c') {m : Call ν} {duty : Duty ν}
    (hm : c.calls[i]? = some m) (hduty : m.duty? = some duty) :
  ∃ m' duty', c'.calls[i]? = some m' ∧ m'.duty? = some duty' ∧ duty'.handler = duty.handler
  := by
  have hlt : i < c.calls.length := (List.getElem?_eq_some_iff.mp hm).1
  cases hc.step_of_step? hstep with
  | upgrade | pass => exact ⟨m, duty, hm, hduty, rfl⟩
  | come => exact ⟨m, duty, (List.getElem?_append_left hlt).trans hm, hduty, rfl⟩
  | @move j _ x x' _ found moves =>
    by_cases hji : j = i
    · subst hji
      obtain rfl := Option.some.inj (hm.symm.trans found)
      obtain ⟨duty', hduty', hhandler, -⟩ :=
        (Call.Goes.of_step (hc.calls j m hm) hc.installed moves).accepted duty hduty
      exact ⟨x', duty', List.getElem?_set_self hlt, hduty', hhandler⟩
    · exact ⟨m, duty, (List.getElem?_set_ne hji).trans hm, hduty, rfl⟩

theorem Sound.served_run
    (hc : c.Sound) {events : List (Event ν)} (hlocal : ∀ event ∈ events, event.IsLocal)
    (hrun : c.run? events = some c') {m : Call ν} {duty : Duty ν} (hm : c.calls[i]? = some m)
    (hduty : m.duty? = some duty) :
  ∃ m' duty', c'.calls[i]? = some m' ∧ m'.duty? = some duty' ∧ duty'.handler = duty.handler
  := by
  induction events generalizing c m duty with
  | nil =>
    cases hrun
    exact ⟨m, duty, hm, hduty, rfl⟩
  | cons event events ih =>
    obtain ⟨c₁, hstep, hrun⟩ := Option.bind_eq_some_iff.mp hrun
    obtain ⟨m₁, duty₁, hm₁, hduty₁, hhandler₁⟩ := hc.served_step hstep hm hduty
    obtain ⟨m', duty', hm', hduty', hhandler'⟩ :=
      ih (hc.step (hlocal event List.mem_cons_self) hstep)
        (fun event hevent => hlocal event (List.mem_cons_of_mem _ hevent)) hrun hm₁ hduty₁
    exact ⟨m', duty', hm', hduty', hhandler'.trans hhandler₁⟩

/-! ### What is installed -/

/-- Only an exchange installs a handler. -/
theorem Sound.handler_step
    (hc : c.Sound) {event : Event ν} (hstep : c.step? event = some c') :
  c'.shared.handler = (event.upgrade?.map c.server.wrap).or c.shared.handler
    ∧ c'.server = c.server ∧ c'.address = c.address
  := by
  cases hc.step_of_step? hstep with
  | upgrade | come | pass => exact ⟨rfl, rfl, rfl⟩
  | move found moves =>
    exact ⟨(Call.Goes.of_step (hc.calls _ _ found) hc.installed moves).handler, rfl, rfl⟩

theorem installed_cons
    {event : Event ν} (hserver : c'.server = c.server)
    (hhandler : c'.shared.handler = (event.upgrade?.map c.server.wrap).or c.shared.handler)
    (events : List (Event ν)) :
  c.installed (event :: events) = c'.installed events
  := by
  rw [installed, installed, hserver, hhandler, List.filterMap_cons]
  cases event.upgrade? with
  | none => rfl
  | some handler =>
    dsimp only
    rw [List.getLast?_cons]
    cases (events.filterMap Event.upgrade?).getLast? <;> rfl

/-- The handler that is installed is the one that was installed last. -/
theorem Sound.handler_run
    (hc : c.Sound) {events : List (Event ν)} (hlocal : ∀ event ∈ events, event.IsLocal)
    (hrun : c.run? events = some c') :
  c'.shared.handler = c.installed events ∧ c'.address = c.address
  := by
  induction events generalizing c with
  | nil =>
    cases hrun
    exact ⟨rfl, rfl⟩
  | cons event events ih =>
    obtain ⟨c₁, hstep, hrun⟩ := Option.bind_eq_some_iff.mp hrun
    obtain ⟨hhandler, hserver, haddress⟩ := hc.handler_step hstep
    rw [installed_cons hserver hhandler, ← haddress]
    exact ih (hc.step (hlocal event List.mem_cons_self) hstep)
      (fun event hevent => hlocal event (List.mem_cons_of_mem _ hevent)) hrun

/-- A stream that is accepted is served by the handler that is installed then, and by no other. -/
theorem Sound.accepted_served
    (hc : c.Sound) {before after : List (Event ν)}
    (hlocal : ∀ event ∈ before ++ .move i .accept :: after, event.IsLocal)
    (hrun : c.run? (before ++ .move i .accept :: after) = some c') :
  ∃ m duty, c'.calls[i]? = some m ∧ m.duty? = some duty ∧ duty.handler = c.installed before
    ∧ (serveAccepted duty.handler).Reaches duty.rest
    ∧ (duty.isOver = true → duty.rest.IsOver)
  := by
  have hc' := hc.run hlocal hrun
  obtain ⟨hbefore, haccept, hafter⟩ := List.forall_mem_append.mp hlocal |>.imp_right
    (List.forall_mem_cons.mp ·)
  rw [run?_append] at hrun
  obtain ⟨b, hrun, hrest⟩ := Option.bind_eq_some_iff.mp hrun
  obtain ⟨b₁, hstep, hrest⟩ := Option.bind_eq_some_iff.mp hrest
  have hb := hc.run hbefore hrun
  have hb₁ := hb.step haccept hstep
  cases hb.step_of_step? hstep with
  | move found moves =>
    have hlt : i < b.calls.length := (List.getElem?_eq_some_iff.mp found).1
    cases moves
    obtain ⟨m', duty', hm', hduty', hhandler⟩ :=
      hb₁.served_run hafter hrest (List.getElem?_set_self hlt) rfl
    have hduty := (hc'.calls i m' hm').duty duty' hduty'
    have hinstalled := (hc.handler_run hbefore hrun).1
    exact ⟨m', duty', hm', hduty', hhandler.trans hinstalled, hduty.reaches, hduty.letGo⟩

/-! ### The pool -/

/-- Once a connection is kept, nothing changes the pool but calls that were opening others. -/
theorem Sound.pool_step
    (hc : c.Sound) {event : Event ν} (hstep : c.step? event = some c') {n : Nat}
    (hn : c.shared.pool.get? c.address = some n) :
  c'.shared.pool.get? c.address = some n
    ∧ ((∀ m ∈ c.calls, m.isOpening = false) →
      c'.shared.pool = c.shared.pool ∧ ∀ m ∈ c'.calls, m.isOpening = false)
  := by
  cases hc.step_of_step? hstep with
  | upgrade | pass => exact ⟨hn, fun hopening => ⟨rfl, hopening⟩⟩
  | @come ctx request address =>
    refine ⟨hn, fun hopening => ⟨rfl, ?_⟩⟩
    intro m hm
    cases List.mem_append.mp hm with
    | inl hm => exact hopening m hm
    | inr hm =>
      rw [List.mem_singleton.mp hm]
      exact Call.isOpening_of_departs (hc.trips (ctx.withToken _) request)
  | move found moves =>
    refine ⟨moves.kept hn, fun hopening => ?_⟩
    obtain ⟨hpool, hopening'⟩ :=
      moves.pool_eq (hc.calls _ _ found) hn (hopening _ (List.mem_of_getElem? found))
    refine ⟨hpool, ?_⟩
    intro x hx
    cases List.mem_or_eq_of_mem_set hx with
    | inl hx => exact hopening x hx
    | inr heq => exact heq ▸ hopening'

theorem Sound.pool_run
    (hc : c.Sound) {events : List (Event ν)} (hlocal : ∀ event ∈ events, event.IsLocal)
    (hrun : c.run? events = some c') {n : Nat} (hn : c.shared.pool.get? c.address = some n) :
  c'.shared.pool.get? c.address = some n
    ∧ ((∀ m ∈ c.calls, m.isOpening = false) → c'.shared.pool = c.shared.pool)
  := by
  induction events generalizing c with
  | nil =>
    cases hrun
    exact ⟨hn, fun _ => rfl⟩
  | cons event events ih =>
    obtain ⟨c₁, hstep, hrun⟩ := Option.bind_eq_some_iff.mp hrun
    have haddress := (hc.handler_step hstep).2.2
    obtain ⟨hn₁, hpool₁⟩ := hc.pool_step hstep hn
    rw [← haddress] at hn₁ ⊢
    obtain ⟨hn', hpool'⟩ := ih (hc.step (hlocal event List.mem_cons_self) hstep)
      (fun event hevent => hlocal event (List.mem_cons_of_mem _ hevent)) hrun hn₁
    refine ⟨hn', fun hopening => ?_⟩
    obtain ⟨hpool, hopening₁⟩ := hpool₁ hopening
    exact (hpool' hopening₁).trans hpool

/-- The connection that is kept is kept and stays alive, and nobody changes the pool but calls that
were opening others before. -/
theorem Sound.kept_alive
    (hc : c.Sound) {before after : List (Event ν)}
    (hlocal : ∀ event ∈ before ++ after, event.IsLocal)
    (hrun : c.run? (before ++ after) = some c') {b : Crowd ν} (hbefore : c.run? before = some b)
    {n : Nat} (hn : b.shared.pool.get? c.address = some n) :
  c'.shared.pool.get? c.address = some n ∧ c'.shared.pool.isLive n = true
    ∧ ((∀ m ∈ b.calls, m.isOpening = false) → c'.shared.pool = b.shared.pool)
  := by
  have hserves := (hc.run hlocal hrun).connected.serves
  rw [(hc.handler_run hlocal hrun).2] at hserves
  obtain ⟨hfirst, hafter⟩ := List.forall_mem_append.mp hlocal
  rw [run?_append, hbefore] at hrun
  rw [← (hc.handler_run hfirst hbefore).2] at hn hserves ⊢
  obtain ⟨hn', hpool⟩ := (hc.run hfirst hbefore).pool_run hafter hrun hn
  exact ⟨hn', hserves.kept_live n hn', hpool⟩

end Crowd

end StreamCall.Client
