import StreamCall.Proofs.Client.Mirror
import StreamCall.Proofs.Client.Standing

/-!
# A call without the others

A crowd tracks another one if it is that of one of its calls without the others
(`Crowd.Tracks`).  It can go on so whatever happens, as long as the handler is installed that
serves the stream of the call (`Crowd.Tracks.run`): the same happens to the call at the same times,
and what the others do is noticed by nothing but the time and what they have drawn.
-/

namespace StreamCall.Client

variable {ν : Type}

namespace Crowd

variable {c c' d : Crowd ν} {i : Nat}

/-! ### Schedules -/

theorem schedule_cons
    {event : Event ν} (hstep : c.step? event = some c') (i : Nat) (events : List (Event ν)) :
  c.schedule i (event :: events)
    = (event.moveOf? i).toList.map (fun move => (c.shared.world.clock, move))
      ++ c'.schedule i events
  := by
  rw [schedule, hstep]

theorem schedule_append
    {events : List (Event ν)} (hrun : c.run? events = some c') (i : Nat)
    (events' : List (Event ν)) :
  c.schedule i (events ++ events') = c.schedule i events ++ c'.schedule i events'
  := by
  induction events generalizing c with
  | nil =>
    cases hrun
    rfl
  | cons event events ih =>
    obtain ⟨d, hstep, hrun⟩ := Option.bind_eq_some_iff.mp hrun
    rw [List.cons_append, schedule_cons hstep, schedule_cons hstep, ih hrun, List.append_assoc]

/-- The moves of an only call are those of the crowd. -/
theorem run?_moves
    {m : Call ν} {r : Call ν × Shared ν} {moves : List Move} (hd : d.calls = [m])
    (h : m.moves? d.shared moves = some r) :
  d.run? (moves.map (Event.move 0)) = some { d with calls := [r.1], shared := r.2 }
  := by
  induction moves generalizing d m with
  | nil =>
    cases h
    rw [← hd]
    rfl
  | cons move moves ih =>
    obtain ⟨r', hmove, hmoves⟩ := Option.bind_eq_some_iff.mp h
    have hstep : d.step? (.move 0 move) = some { d with calls := [r'.1], shared := r'.2 } := by
      simp [step?, hd, hmove]
    rw [List.map_cons, run?, hstep, Option.bind_some]
    exact ih (d := { d with calls := [r'.1], shared := r'.2 }) rfl hmoves

/-- Moves that get a call its connection are not scheduled. -/
theorem schedule_connecting
    (d : Crowd ν) {moves : List Move} (h : ∀ move ∈ moves, move.connects = true) :
  d.schedule 0 (moves.map (Event.move 0)) = []
  := by
  induction moves generalizing d with
  | nil => rfl
  | cons move moves ih =>
    have hmove : (Event.move (ν := ν) 0 move).moveOf? 0 = none := by
      simp [Event.moveOf?, h move List.mem_cons_self]
    rw [List.map_cons, schedule, hmove]
    cases d.step? (.move 0 move) with
    | none => rfl
    | some d => exact ih d fun move hmove => h move (List.mem_cons_of_mem _ hmove)

/-! ### The tokens of others -/

/-- Whether a token belongs to another call than the one at a place. -/
def Theirs (c : Crowd ν) (i : Nat) (t : Token) : Prop :=
  ∃ (j : Nat) (m : Call ν), j ≠ i ∧ c.calls[j]? = some m ∧ m.Owns t

/-- The tokens of a call are apart from those of others. -/
theorem Sound.isFree
    (h : c.Sound) {m : Call ν} (hm : c.calls[i]? = some m) {root : Token}
    (hroot : root ∈ m.roots) :
  root.IsFree (c.Theirs i)
  := by
  rintro u v hu ⟨j, x, hji, hx, root', hroot', hv⟩
  exact (h.rooted.apart j i x m hx hm hji root' hroot' root hroot).not_isOver hv hu

/-- Calls keep their tokens. -/
theorem theirs_mono
    (h : ∀ (j : Nat) m, j ≠ i → c.calls[j]? = some m → ∃ m', c'.calls[j]? = some m'
      ∧ ∀ root ∈ m.roots, root ∈ m'.roots) (t : Token) (ht : c.Theirs i t) :
  c'.Theirs i t
  := by
  obtain ⟨j, m, hji, hm, root, hroot, hover⟩ := ht
  obtain ⟨m', hm', hroots⟩ := h j m hji hm
  exact ⟨j, m', hji, hm', root, hroots root hroot, hover⟩

/-! ### A call alone -/

/-- Whether a crowd is that of the call at a place without the others. -/
structure Tracks (i : Nat) (c d : Crowd ν) : Prop where
  client : d.client = c.client
  address : d.address = c.address
  shared : c.shared.Mirrors c.address (c.Theirs i) d.shared
  absent : c.calls[i]? = none → d.calls = []
  present : ∀ m, c.calls[i]? = some m → ∃ m', d.calls = [m'] ∧ m.Mirrors c.address m'

/-- Whether a crowd without others comes, by events with a given schedule and without exchanging
the handler, to be that of a call of another crowd. -/
def Accompanies (i : Nat) (d : Crowd ν) (scheduled : List (Nat × Move)) (c : Crowd ν) : Prop :=
  ∃ (events : List (Event ν)) (d' : Crowd ν), d.run? events = some d'
    ∧ (∀ event ∈ events, event.upgrade? = none) ∧ d.schedule 0 events = scheduled
    ∧ d'.shared.handler = d.shared.handler ∧ c.Tracks i d'

/-- What others do is noticed by nothing but the time and what they have drawn. -/
theorem Tracks.other
    (h : c.Tracks i d) (hclient : c'.client = c.client) (haddress : c'.address = c.address)
    (hcall : c'.calls[i]? = c.calls[i]?) (htoken : c'.shared.token = c.shared.token)
    (hkept : ∀ n, c.shared.pool.get? c.address = some n →
      c'.shared.pool.get? c.address = some n)
    (hturns : c.shared.world.Turns (c'.Theirs i) c'.shared.world)
    (htheirs : ∀ t, c.Theirs i t → c'.Theirs i t) :
  Accompanies i d [] c'
  := by
  let w := c'.shared.world
  have hworld := h.shared.world
  have hle : d.shared.world.clock ≤ w.clock ∧ d.shared.world.drawn ≤ w.drawn
      ∧ d.shared.world.tokens.next ≤ w.tokens.next := by
    rw [hworld.clock, hworld.drawn, hworld.next]
    exact ⟨hturns.clock_le, hturns.drawn_le, hturns.next_le⟩
  let elapsed : Crowd ν :=
    { d with
      shared := { d.shared with world := passed d.shared.world w.clock w.drawn w.tokens.next } }
  have hstep : d.step? (.pass w.clock w.drawn w.tokens.next) = some elapsed := if_pos hle
  refine ⟨[.pass w.clock w.drawn w.tokens.next], elapsed, ?_, ?_, ?_, rfl, ?_⟩
  · rw [run?, hstep]
    rfl
  · intro event hevent
    rw [List.mem_singleton.mp hevent]
    rfl
  · rw [schedule_cons hstep]
    rfl
  · constructor
    · exact h.client.trans hclient.symm
    · exact h.address.trans haddress.symm
    · refine ⟨h.shared.token.trans htoken.symm, ?_, ?_⟩
      · exact hworld.of_turns hturns (fun _ ht => ht) htheirs
      · rw [haddress]
        intro hnone
        apply h.shared.bare
        cases hget : c.shared.pool.get? c.address with
        | none => rfl
        | some n =>
          rw [hkept n hget] at hnone
          cases hnone
    · rw [hcall]
      exact h.absent
    · rw [hcall, haddress]
      exact h.present

/-- What happens to a call, it can make happen alone. -/
theorem Tracks.own
    (h : c.Tracks i d) (hc : c.Sound) (hd : d.Sound) {m m₁ : Call ν} {s₁ : Shared ν}
    (hm : c.calls[i]? = some m) {move : Move}
    (hstep : Call.Step c.address m c.shared move m₁ s₁)
    (haccept : move = .accept → d.shared.handler = c.shared.handler) :
  Accompanies i d
    ((Event.move (ν := ν) i move).moveOf? i |>.toList.map fun move => (c.shared.world.clock, move))
    { c with calls := c.calls.set i m₁, shared := s₁ }
  := by
  obtain ⟨m', hcalls, hmirrors⟩ := h.present m hm
  have hm' : d.calls[0]? = some m' := by rw [hcalls]; rfl
  have hserves := hd.connected.serves
  have hasked := hd.connected.asked 0 m' hm'
  rw [h.address] at hserves hasked
  obtain ⟨moves, m₁', s₁', hmoves, hcall, hshared, hhandler, hsame⟩ :=
    hmirrors.step h.shared (hc.calls i m hm) (fun root hroot => hc.isFree hm hroot)
      hc.connected.serves hserves (hc.connected.asked i m hm) hasked haccept hstep
  have hlt : i < c.calls.length := (List.getElem?_eq_some_iff.mp hm).1
  have hself : (c.calls.set i m₁)[i]? = some m₁ := List.getElem?_set_self hlt
  refine ⟨moves.map (.move 0), { d with calls := [m₁'], shared := s₁' }, run?_moves hcalls hmoves,
    ?_, ?_, hhandler, ?_⟩
  · intro event hevent
    obtain ⟨move, -, rfl⟩ := List.mem_map.mp hevent
    rfl
  · rcases hsame with rfl | ⟨hconnects, hall⟩
    · obtain ⟨d', hrun, -⟩ := Option.bind_eq_some_iff.mp (run?_moves hcalls hmoves)
      rw [List.map_singleton, schedule_cons hrun, h.shared.world.clock]
      simp [Event.moveOf?, schedule]
    · rw [schedule_connecting d hall]
      simp [Event.moveOf?, hconnects]
  · constructor
    · exact h.client
    · exact h.address
    · apply hshared.mono
      apply theirs_mono
      intro j x hji hx
      exact ⟨x, (List.getElem?_set_ne hji.symm).trans hx, fun _ hroot => hroot⟩
    · intro hnone
      rw [hself] at hnone
      cases hnone
    · intro x hx
      obtain rfl := Option.some.inj (hself.symm.trans hx)
      exact ⟨m₁', rfl, hcall⟩

/-- The same call comes alone. -/
theorem newCall_eq
    (h : c.Tracks i d) (ctx : Context) (request : Request) :
  (d.newCall ctx request).1 = (c.newCall ctx request).1
  := by
  have hworld := h.shared.world
  simp only [newCall, Tokens.root, Tokens.child, h.client, hworld.next, hworld.clock]

theorem Tracks.come
    (h : c.Tracks i d) {ctx : Context} {request : Request} (haddress : request.address = c.address)
    (hi : c.calls.length = i) :
  Accompanies i d []
    { c with
      calls := c.calls ++ [(c.newCall ctx request).1], shared := (c.newCall ctx request).2 }
  := by
  subst hi
  have hcalls : d.calls = [] := h.absent (List.getElem?_eq_none (Nat.le_refl _))
  let arrived : Crowd ν :=
    { d with calls := [(d.newCall ctx request).1], shared := (d.newCall ctx request).2 }
  have hstep : d.step? (.come ctx request) = some arrived := by
    rw [step?, if_pos (haddress.trans h.address.symm), hcalls]
    rfl
  have hself : (c.calls ++ [(c.newCall ctx request).1])[c.calls.length]?
      = some (c.newCall ctx request).1 := List.getElem?_concat_length
  refine ⟨[.come ctx request], arrived, ?_, ?_, ?_, rfl, ?_⟩
  · rw [run?, hstep]
    rfl
  · intro event hevent
    rw [List.mem_singleton.mp hevent]
    rfl
  · rw [schedule_cons hstep]
    rfl
  · constructor
    · exact h.client
    · exact h.address
    · refine ⟨h.shared.token, ?_, h.shared.bare⟩
      apply (h.shared.world.root.child c.shared.world.tokens.root.1
        d.shared.world.tokens.root.1).mono
      apply theirs_mono
      intro j x hji hx
      have hlt : j < c.calls.length := (List.getElem?_eq_some_iff.mp hx).1
      exact ⟨x, (List.getElem?_append_left hlt).trans hx, fun _ hroot => hroot⟩
    · intro hnone
      rw [hself] at hnone
      cases hnone
    · intro x hx
      obtain rfl := Option.some.inj (hself.symm.trans hx)
      rw [← newCall_eq h]
      exact ⟨_, rfl, .refl _, rfl⟩

/-! ### A call alone throughout a run -/

/-- Whatever happens in a crowd, a call can go on alone, if the handler is installed that serves
its stream. -/
theorem Tracks.step
    (h : c.Tracks i d) (hc : c.Sound) (hd : d.Sound) {event : Event ν}
    (hstep : c.step? event = some c')
    (hserved : ∀ m duty, c'.calls[i]? = some m → m.duty? = some duty →
      duty.handler = d.shared.handler) :
  Accompanies i d ((event.moveOf? i).toList.map fun move => (c.shared.world.clock, move)) c'
  := by
  cases hc.step_of_step? hstep with
  | upgrade => exact h.other rfl rfl rfl rfl (fun _ hn => hn) (.refl _) fun _ ht => ht
  | @come ctx request address =>
    by_cases hi : c.calls.length = i
    · exact h.come address hi
    · have htheirs : ∀ (j : Nat) m, j ≠ i → c.calls[j]? = some m →
          ∃ m', (c.calls ++ [(c.newCall ctx request).1])[j]? = some m'
            ∧ ∀ root ∈ m.roots, root ∈ m'.roots := by
        intro j m _ hm
        have hlt : j < c.calls.length := (List.getElem?_eq_some_iff.mp hm).1
        exact ⟨m, (List.getElem?_append_left hlt).trans hm, fun _ hroot => hroot⟩
      have hcall : (c.calls ++ [(c.newCall ctx request).1])[i]? = c.calls[i]? := by
        rw [List.getElem?_append]
        split
        · rfl
        · next hle =>
          rw [List.getElem?_eq_none (by simp only [List.length_singleton]; omega),
            List.getElem?_eq_none (Nat.le_of_not_lt hle)]
      refine h.other rfl rfl hcall rfl (fun _ hn => hn) ?_ (theirs_mono htheirs)
      exact ⟨rfl, Nat.le_refl _, Nat.le_refl _, Nat.le_add_right _ 2, fun _ h => h,
        fun _ h => .inl h⟩
  | pass clock_le drawn_le next_le =>
    refine h.other rfl rfl rfl rfl (fun _ hn => hn) ?_ fun _ ht => ht
    exact ⟨rfl, clock_le, drawn_le, next_le, fun _ h => h, fun _ h => .inl h⟩
  | @move j move x x' s' found moves =>
    have hlt : j < c.calls.length := (List.getElem?_eq_some_iff.mp found).1
    by_cases hji : j = i
    · subst hji
      apply h.own hc hd found moves
      rintro rfl
      have hduty : ∀ duty, x'.duty? = some duty → duty.handler = d.shared.handler := fun duty =>
        hserved x' duty (List.getElem?_set_self hlt)
      cases moves
      exact (hduty _ rfl).symm
    · have hgoes := Call.Goes.of_step (hc.calls j x found) hc.installed moves
      have hmoveOf : (Event.move (ν := ν) j move).moveOf? i = none := by
        simp [Event.moveOf?, hji]
      rw [hmoveOf]
      refine h.other rfl rfl (List.getElem?_set_ne hji) hgoes.token (fun n hn => moves.kept hn)
        (hgoes.turns.mono ?_) (theirs_mono ?_)
      · rintro t ⟨root, hroot, hover⟩
        exact ⟨j, x', hji, List.getElem?_set_self hlt, root, hgoes.mem_roots hroot, hover⟩
      · intro k m _ hm
        by_cases hkj : k = j
        · subst hkj
          obtain rfl := Option.some.inj (hm.symm.trans found)
          exact ⟨x', List.getElem?_set_self hlt, fun _ hroot => hgoes.mem_roots hroot⟩
        · exact ⟨m, (List.getElem?_set_ne (Ne.symm hkj)).trans hm, fun _ hroot => hroot⟩

theorem isLocal_of_upgrade? {event : Event ν} (h : event.upgrade? = none) :
  event.IsLocal
  := by
  cases event with
  | upgrade handler => cases h
  | come | pass | move => trivial

/-- Throughout a run a call can go on alone. -/
theorem Tracks.run
    (h : c.Tracks i d) (hc : c.Sound) (hd : d.Sound) {events : List (Event ν)}
    (hlocal : ∀ event ∈ events, event.IsLocal) (hrun : c.run? events = some c')
    (hserved : ∀ m duty, c'.calls[i]? = some m → m.duty? = some duty →
      duty.handler = d.shared.handler) :
  Accompanies i d (c.schedule i events) c'
  := by
  induction events generalizing c d with
  | nil =>
    cases hrun
    refine ⟨[], d, rfl, ?_, rfl, rfl, h⟩
    rintro _ ⟨⟩
  | cons event events ih =>
    obtain ⟨c₁, hstep, hrun⟩ := Option.bind_eq_some_iff.mp hrun
    have hlocal' : ∀ event ∈ events, event.IsLocal := fun event hevent =>
      hlocal event (List.mem_cons_of_mem _ hevent)
    have hc₁ := hc.step (hlocal event List.mem_cons_self) hstep
    -- The handler is the one that serves the stream in the end, and so it is from the beginning.
    have hserved₁ : ∀ m duty, c₁.calls[i]? = some m → m.duty? = some duty →
        duty.handler = d.shared.handler := by
      intro m duty hm hduty
      obtain ⟨m', duty', hm', hduty', hhandler⟩ := hc₁.served_run hlocal' hrun hm hduty
      exact hhandler.symm.trans (hserved m' duty' hm' hduty')
    obtain ⟨first, d₁, hfirst, hplain, hschedule, hhandler, h₁⟩ := h.step hc hd hstep hserved₁
    have hd₁ := hd.run (fun event hevent => isLocal_of_upgrade? (hplain event hevent)) hfirst
    obtain ⟨rest, d', hrest, hplain', hschedule', hhandler', h'⟩ :=
      ih h₁ hc₁ hd₁ hlocal' hrun (hhandler ▸ hserved)
    refine ⟨first ++ rest, d', ?_, ?_, ?_, hhandler'.trans hhandler, h'⟩
    · rw [run?_append, hfirst]
      exact hrest
    · intro event hevent
      cases List.mem_append.mp hevent with
      | inl hevent => exact hplain event hevent
      | inr hevent => exact hplain' event hevent
    · rw [schedule_append hfirst, schedule_cons hstep, hschedule, hschedule']

end Crowd

end StreamCall.Client
