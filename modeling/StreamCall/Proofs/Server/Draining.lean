import Mathlib.Tactic.Use
import StreamCall.Server.Life

/-!
# Draining a server

A call that shuts a server down in the course of its first run returns only when that run is over
(`closing_drains_first_run`).  This is so of the first run only: that a run has ended is never
forgotten, and a call in the course of a later run does not wait (`closing_skips_second_run`).
-/

namespace StreamCall.Server

variable {η : Type}

/-! ### Runs -/

/-- Whether the runs of a server have been counted: the one that is going on is the last, and
one has ended if there have been others. -/
structure Counted (s : Server η) : Prop where
  last : ∀ run, s.run = some run → run.number + 1 = s.runs
  hasEnded_iff : s.hasEnded = true ↔ s.run.toList.length < s.runs

namespace Counted

theorem mapRun {s : Server η} (h : s.Counted) {f : Run → Run}
    (hf : ∀ run, (f run).number = run.number) :
  (s.mapRun f).Counted
  := by
  constructor
  · intro run hrun
    obtain ⟨run', hrun', rfl⟩ := Option.map_eq_some_iff.mp hrun
    rw [hf]
    exact h.last run' hrun'
  · rw [Server.mapRun, h.hasEnded_iff]
    cases s.run <;> rfl

theorem shut {s : Server η} (h : s.Counted) :
  s.shut.Counted
  := by
  obtain ⟨hlast, hended⟩ := h.mapRun (f := fun run => { run with isAccepting := false })
    fun _ => rfl
  exact ⟨hlast, hended⟩

theorem start {s : Server η} (h : s.Counted) (hnone : s.run = none) (address : Address) :
  (s.start address).Counted
  := by
  constructor
  · rintro run hrun
    cases hrun
    rfl
  · have hended := h.hasEnded_iff
    rw [hnone] at hended
    simpa [Server.start] using hended

theorem accept? {s s' : Server η} (h : s.Counted) {connection : Nat}
    (haccept : s.accept? = some (connection, s')) :
  s'.Counted
  := by
  rw [Server.accept?] at haccept
  split at haccept
  · cases haccept
  · next run hrun =>
    split at haccept
    · cases haccept
      constructor
      · intro run' hrun'
        cases hrun'
        exact h.last run hrun
      · have hended := h.hasEnded_iff
        rw [hrun] at hended
        exact hended
    · cases haccept

theorem hasEnded_accept? {s s' : Server η} {connection : Nat}
    (haccept : s.accept? = some (connection, s')) :
  s'.hasEnded = s.hasEnded
  := by
  rw [Server.accept?] at haccept
  split at haccept
  · cases haccept
  · split at haccept
    · cases haccept
      rfl
    · cases haccept

theorem settle {s : Server η} (h : s.Counted) :
  s.settle.Counted
  := by
  rw [Server.settle]
  split
  · next hover =>
    cases hrun : s.run with
    | none =>
      rw [hrun] at hover
      cases hover
    | some run =>
      have hlast := h.last run hrun
      constructor
      · intro run' hrun'
        cases hrun'
      · simp [← hlast]
  · exact h

theorem hasEnded_settle {s : Server η} (h : s.hasEnded = true) :
  s.settle.hasEnded = true
  := by
  rw [Server.settle]
  split
  · rfl
  · exact h

end Counted

/-! ### Calls -/

namespace Life

/-- Whether the calls that have returned without being given up had nothing to wait for, or a run
had ended. -/
structure Accounted (l : Life η) : Prop where
  counted : l.server.Counted
  returned : ∀ c ∈ l.closings, c.hasReturned = true → c.isCancelled = false →
    c.run = none ∨ l.server.hasEnded = true

theorem accounted_fresh :
  (fresh (η := η)).Accounted
  := by
  constructor
  · constructor
    · intro run hrun
      cases hrun
    · exact iff_of_false Bool.false_ne_true (Nat.lt_irrefl 0)
  · intro c hc
    cases hc

/-- What happens to the server alone does not undo that a run has ended. -/
theorem Accounted.of_server
    {l : Life η} (h : l.Accounted) {s : Server η} (hcounted : s.Counted)
    (hended : l.server.hasEnded = true → s.hasEnded = true) :
  Accounted { l with server := s }
  := by
  use hcounted
  intro c hc hreturned hkept
  obtain hnone | h := h.returned c hc hreturned hkept
  · exact .inl hnone
  · exact .inr (hended h)

/-- What happens to one call is accounted for by that call. -/
theorem Accounted.modify
    {l : Life η} (h : l.Accounted) (call : Nat) {f : Closing → Closing}
    (hf : ∀ c ∈ l.closings[call]?, (f c).hasReturned = true → (f c).isCancelled = false →
      (f c).run = none ∨ l.server.hasEnded = true) :
  Accounted { l with closings := l.closings.modify call f }
  := by
  use h.counted
  intro c hc
  obtain ⟨i, hi⟩ := List.mem_iff_getElem?.mp hc
  rw [List.getElem?_modify] at hi
  obtain ⟨c', hc', rfl⟩ := Option.map_eq_some_iff.mp hi
  split
  · next hcall =>
    rw [← hcall] at hc'
    exact hf c' hc'
  · exact h.returned c' (List.mem_of_getElem? hc')

theorem Accounted.step {l l' : Life η} (h : l.Accounted) {event : Event η}
    (hstep : l.step? event = some l') :
  l'.Accounted
  := by
  cases event with
  | upgrade handler =>
    cases hstep
    exact h.of_server ⟨h.counted.last, h.counted.hasEnded_iff⟩ id
  | start address =>
    rw [step?] at hstep
    split at hstep
    · cases hstep
    · next hnone =>
      cases hstep
      exact h.of_server (h.counted.start (Option.not_isSome_iff_eq_none.mp hnone) address) id
  | accept =>
    obtain ⟨⟨connection, s⟩, haccept, rfl⟩ := Option.map_eq_some_iff.mp hstep
    exact h.of_server (h.counted.accept? haccept) (Counted.hasEnded_accept? haccept).trans
  | leave connection =>
    cases hstep
    exact h.of_server (h.counted.mapRun fun _ => rfl) id
  | cancel =>
    cases hstep
    exact h.of_server (h.counted.mapRun fun _ => rfl) id
  | loseSocket =>
    cases hstep
    exact h.of_server (h.counted.mapRun fun _ => rfl) id
  | settle =>
    rw [step?] at hstep
    split at hstep
    · cases hstep
      exact h.of_server h.counted.settle Counted.hasEnded_settle
    · cases hstep
  | shut =>
    cases hstep
    use h.counted.shut
    intro c hc hreturned hkept
    obtain hc | hc := List.mem_append.mp hc
    · exact h.returned c hc hreturned hkept
    · cases List.mem_singleton.mp hc
      cases hreturned
  | giveUp call =>
    cases hstep
    apply h.modify
    intro c _ _ hkept
    cases hkept
  | goOn call =>
    rw [step?] at hstep
    split at hstep
    · next c hc =>
      split at hstep
      · next hmay =>
        cases hstep
        apply h.modify
        intro c' hc' _ hkept
        cases hc.symm.trans hc'
        have hmayReturn := (Bool.and_eq_true_iff.mp hmay).1
        rw [mayReturn, hkept, Bool.or_false, Bool.or_eq_true, Option.isNone_iff_eq_none]
          at hmayReturn
        exact hmayReturn
      · cases hstep
    · cases hstep

theorem Accounted.run {l l' : Life η} (h : l.Accounted) {events : List (Event η)}
    (hrun : l.run? events = some l') :
  l'.Accounted
  := by
  induction events generalizing l with
  | nil =>
    cases hrun
    exact h
  | cons event events ih =>
    obtain ⟨l₁, hstep, hrest⟩ := Option.bind_eq_some_iff.mp hrun
    exact ih (h.step hstep) hrest

/-- A call that shuts a server down in the course of its first run, and that nobody has given up,
has returned only if that run is over: none of its connections is served any more, and only a later
run is bound to an address. -/
theorem closing_drains_first_run
    {events : List (Event η)} {l : Life η} (hrun : fresh.run? events = some l) {c : Closing}
    (hmem : c ∈ l.closings) (hfirst : c.run = some 0) (hreturned : c.hasReturned = true)
    (hkept : c.isCancelled = false) :
  ∀ run, l.server.run = some run → 0 < run.number
  := by
  intro run hcurrent
  have h := accounted_fresh.run hrun
  obtain hnone | hended := h.returned c hmem hreturned hkept
  · rw [hfirst] at hnone
    cases hnone
  · have hruns := h.counted.hasEnded_iff.mp hended
    have hlast := h.counted.last run hcurrent
    rw [hcurrent, Option.toList_some, List.length_singleton] at hruns
    omega

/-- A run is cancelled and comes to its end, and another begins.  A call in the course of that one
returns while a connection is served. -/
def restarted (address : Address) : List (Event η) :=
  [.start address, .cancel, .settle, .start address, .accept, .shut, .goOn 0]

/-- A call that shuts a server down in the course of its second run returns at once. -/
theorem closing_skips_second_run (address : Address) :
  ∃ l : Life η, fresh.run? (restarted address) = some l
    ∧ l.closings = [{ run := some 1, isCancelled := false, hasReturned := true }]
    ∧ l.server.run = some
      { number := 1, address, isAccepting := false, isCancelled := false, serving := [0] }
  :=
  ⟨_, rfl, rfl, rfl⟩

end Life

end StreamCall.Server
