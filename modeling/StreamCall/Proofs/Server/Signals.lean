import Mathlib.Tactic.Use
import StreamCall.Proofs.Program
import StreamCall.Proofs.Server.Deeds
import StreamCall.Server.Accepted

/-!
# Signals of accepted streams

A run of the program that serves an accepted stream is told by its deeds.  In between the network
does what it likes (`Attends`): what the peer sends arrives, writes are taken in part, and the
signal that a side is finished gets on.

The peer is sent one signal, unless closing the stream has been broken off by its deadline before
(`serve_signals_once`); then two may have been sent (`serve_signals_twice`).
-/

namespace StreamCall.WireStream

variable {ν α β : Type}

/-! ### Runs -/

/-- Whether a program that serves a stream does some deeds and ends, and the stream is left in
some state.  Whatever is asked of the surroundings may be answered in any way, the network may be
as slow as it likes, and what the peer sends may arrive at any time; the peer does not ask to
stop. -/
inductive Attends : WireStream → Serving ν α → List Deed → Except Payload α → WireStream → Prop
    where
  | done (s : WireStream) (a : α) : Attends s (.done a) [] (.ok a) s
  | panic (s : WireStream) (q : Payload) : Attends s (.panic q) [] (.error q) s
  | ask {s t : WireStream} {op : AmbientOp ν} {next : op.Answer → Serving ν α}
      {deeds : List Deed} {ending : Except Payload α} (answer : op.Answer) :
    Attends s (next answer) deeds ending t → Attends s (.step (.inl op) next) deeds ending t
  | act {s s' t : WireStream} {op : StreamOp} {next : op.Answer → Serving ν α}
      {deeds : List Deed} {ending : Except Payload α} {pace : Pace} {now : Nat}
      {answer : op.Answer} :
    s.answerAt? pace now op = some (answer, s') → Attends s' (next answer) deeds ending t →
      Attends s (.step (.inr op) next) (⟨now, op, answer⟩ :: deeds) ending t
  | hear {s t : WireStream} {p : Serving ν α} {deeds : List Deed} {ending : Except Payload α}
      (event : PeerEvent) :
    (∀ code, event ≠ .stop code) → Attends (s.receive event) p deeds ending t →
      Attends s p deeds ending t
  | carry {s t : WireStream} {p : Serving ν α} {deeds : List Deed} {ending : Except Payload α}
      (headway : Headway) :
    Attends (s.advance headway) p deeds ending t → Attends s p deeds ending t

/-- A run is accounted for by its deeds. -/
theorem Accounts.attends
    {s t : WireStream} {p : Serving ν α} {deeds : List Deed} {ending : Except Payload α}
    (hrun : Attends s p deeds ending t) {before : List Deed} (h : Accounts before s) :
  Accounts (before ++ deeds) t
  := by
  induction hrun generalizing before with
  | done s a =>
    rw [List.append_nil]
    exact h
  | panic s q =>
    rw [List.append_nil]
    exact h
  | ask answer _ ih => exact ih h
  | act hanswer _ ih =>
    rw [List.append_cons]
    exact ih (h.answer hanswer)
  | hear event hevent _ ih => exact ih (h.of_sameSide (sameSide_receive hevent _))
  | carry headway _ ih => exact ih (h.advance headway)

theorem Attends.done_inv
    {s t : WireStream} {a : α} {deeds : List Deed} {ending : Except Payload α}
    (h : Attends s (.done a : Serving ν α) deeds ending t) :
  deeds = [] ∧ ending = .ok a
  := by
  generalize hp : (.done a : Serving ν α) = p at h
  induction h with
  | done s b =>
    cases hp
    exact ⟨rfl, rfl⟩
  | panic s q => cases hp
  | ask answer _ _ => cases hp
  | act hanswer _ _ => cases hp
  | hear event _ _ ih => exact ih hp
  | carry headway _ ih => exact ih hp

/-- A program that starts with an operation on the stream does it once what comes before has
happened. -/
theorem Attends.step_inv
    {s t : WireStream} {op : StreamOp} {next : op.Answer → Serving ν α} {deeds : List Deed}
    {ending : Except Payload α}
    (h : Attends s (.step (S := Service ν) (.inr op) next) deeds ending t)
    {before : List Deed} (haccounts : Accounts before s) :
  ∃ s₁ s₂ pace now answer rest, Accounts before s₁ ∧ s₁.answerAt? pace now op = some (answer, s₂)
    ∧ Attends s₂ (next answer) rest ending t ∧ deeds = ⟨now, op, answer⟩ :: rest
  := by
  generalize hp : Program.step (S := Service ν) (.inr op) next = p at h
  induction h with
  | done s b => cases hp
  | panic s q => cases hp
  | ask answer _ _ => cases hp
  | act hanswer hrun _ =>
    cases hp
    exact ⟨_, _, _, _, _, _, haccounts, hanswer, hrun, rfl⟩
  | hear event hevent _ ih => exact ih (haccounts.of_sameSide (sameSide_receive hevent _)) hp
  | carry headway _ ih => exact ih (haccounts.advance headway) hp

/-! ### The end of a stream -/

/-- Closes the side that is written, whatever comes of it. -/
def closing : Serving ν Unit :=
  (Serving.onStream (Stream.ask .shutdown)).bind fun (_ : Except IoError Unit) => .done ()

/-- Without a deadline closing does not fail. -/
theorem answer_of_shutdown?
    {s s' : WireStream} (hunasked : s.askedToStop = none) (huntimed : s.writeDeadline = none)
    {now : Nat} {headway : Headway} {answer : Except IoError Unit}
    (h : s.shutdown? now headway = some (answer, s')) :
  answer = .ok ()
  := by
  rw [shutdown?] at h
  split at h
  · cases h
    rfl
  · rw [huntimed, hunasked] at h
    simp only [hasPassed, Option.any_none, Bool.false_eq_true, if_false] at h
    split at h
    · cases h
      rfl
    · obtain ⟨side, hfinish⟩ := s.finish_eq
      obtain ⟨side', signals, hadvance⟩ := s.finish.advance_eq headway
      rw [hadvance, hfinish, huntimed] at h
      cases h

/-- The last closing decides on a signal, if none has been decided on and it is not broken off. -/
theorem Accounts.decided
    {before : List Deed} {s s' : WireStream} (h : Accounts before s) {now : Nat}
    {headway : Headway} {answer : Except IoError Unit}
    (hshutdown : s.shutdown? now headway = some (answer, s'))
    (hnot : ¬ BrokenOff (before ++ [⟨now, .shutdown, answer⟩])) :
  (firstSignal? (before ++ [⟨now, .shutdown, answer⟩])).getD (.reset 0)
    = (firstSignal? before).getD
      (if hasPassed now (deadlineAfter before) then .reset 0 else .finish)
  := by
  rw [firstSignal?_append]
  cases hfirst : firstSignal? before with
  | some signal => rfl
  | none =>
    cases answer with
    | error e =>
      have hpassed : hasPassed now (deadlineAfter before) = true := by
        rw [← Bool.not_eq_false]
        exact fun hstill => hnot ((brokenOff_append before _).mpr (.inr ⟨hfirst, hstill⟩))
      rw [if_pos hpassed]
      rfl
    | ok u =>
      have hstill : ¬ hasPassed now (deadlineAfter before) = true := by
        rw [shutdown?] at hshutdown
        split at hshutdown
        · next hclosed => exact absurd hclosed (h.stands.ne_closed hfirst)
        · split at hshutdown
          · cases hshutdown
          · next hnot =>
            rw [← h.deadline]
            exact hnot
      rw [if_neg hstill]
      rfl

/-- What a side has sent that is closed at last. -/
theorem Accounts.closing
    {s t : WireStream} {before deeds : List Deed} {ending : Except Payload Unit}
    (h : Accounts before s) (hrun : Attends s (closing (ν := ν)) deeds ending t) :
  ∃ now answer, deeds = [⟨now, .shutdown, answer⟩]
    ∧ t.drop.sent = acceptedBytes before
    ∧ (¬ BrokenOff (before ++ deeds) → t.drop.signals = [(firstSignal? before).getD
      (if hasPassed now (deadlineAfter before) then .reset 0 else .finish)])
    ∧ (deadlineAfter before = none → answer = .ok ())
  := by
  have hall := h.attends hrun
  obtain ⟨s₁, s₂, pace, now, answer, rest, haccounts, hanswer, hrest, rfl⟩ := hrun.step_inv h
  obtain ⟨rfl, -⟩ := hrest.done_inv
  use now, answer, rfl
  refine ⟨?_, ?_, ?_⟩
  · rw [hall.sent_drop, acceptedBytes_append]
    exact List.append_nil _
  · intro hnot
    rw [hall.stands.drop.once hnot, haccounts.decided hanswer hnot]
  · intro huntimed
    exact answer_of_shutdown? haccounts.unasked (haccounts.deadline.trans huntimed) hanswer

end StreamCall.WireStream
