import StreamCall.Proofs.Stream.Feed
import StreamCall.Proofs.Stream.Wire

/-!
# What arrives on a stream of a connection

A stream of a connection is a feed (`WireStream.feed`).  Its operations are done in turns, and
before each more of what the peer does has arrived.  The input is what the peer sends before it
signals; a reset, and reading that is stopped, throw away what has not been read.

A read into an empty buffer is answered at once, so on such a stream a limit may be noticed.
-/

namespace StreamCall

/-- When an operation is done, what arrives before it, and what the network does meanwhile. -/
structure Turn where
  time : Nat
  events : List PeerEvent
  pace : Pace

/-- The data that the peer sends before it signals. -/
def incoming : List PeerEvent → Bytes
  | [] => []
  | .send fragment :: events => fragment ++ incoming events
  | .signal _ :: _ => []
  | .stop _ :: events => incoming events

namespace WireStream

/-- The input that is left, given what is still to arrive. -/
def awaiting (s : WireStream) (events : List PeerEvent) : Bytes :=
  if s.readStopped.isSome then []
  else
    match s.ended with
    | some (.reset _) => []
    | some .finish => s.arrived.flatten
    | none => s.arrived.flatten ++ incoming events

theorem awaiting_of_stopped {s : WireStream} (h : s.readStopped.isSome) (events : List PeerEvent) :
  s.awaiting events = []
  :=
  if_pos h

theorem awaiting_of_reset
    {s : WireStream} {code : Nat} (h : s.ended = some (.reset code)) (events : List PeerEvent) :
  s.awaiting events = []
  := by
  rw [awaiting, h]
  exact ite_self []

theorem awaiting_of_unstopped
    {s : WireStream} (hstopped : ¬ s.readStopped.isSome)
    (hreset : ¬ ∃ code, s.ended = some (.reset code)) (events : List PeerEvent) :
  s.awaiting events = s.arrived.flatten ++ if s.ended.isNone then incoming events else []
  := by
  rw [awaiting, if_neg hstopped]
  rcases hended : s.ended with _ | (- | code)
  · rfl
  · exact (List.append_nil _).symm
  · exact absurd ⟨code, hended⟩ hreset

/-- Data that has arrived is no longer to arrive. -/
theorem awaiting_receive (s : WireStream) (event : PeerEvent) (events : List PeerEvent) :
  (s.receive event).awaiting events = s.awaiting (event :: events)
    ∨ ∃ code, (s.receive event).ended = some (.reset code)
  := by
  obtain ⟨id, token, arrived, ended, readStopped, asked, sent, signals, side, read, write⟩ := s
  rcases event with fragment | (- | code) | code
  · left
    rcases ended with _ | (- | code)
    · simp [receive, awaiting, incoming]
    · rfl
    · rfl
  · left
    rcases ended with _ | (- | code)
    · simp [receive, awaiting, incoming]
    · rfl
    · rfl
  · rcases ended with _ | (- | code')
    · exact .inr ⟨code, rfl⟩
    · exact .inl rfl
    · exact .inl rfl
  · left
    rcases ended with _ | (- | code) <;> rfl

theorem readStopped_receive (s : WireStream) (event : PeerEvent) :
  (s.receive event).readStopped = s.readStopped
  := by
  rcases event with fragment | (- | code) | code
  · rw [receive]
    split <;> rfl
  · rfl
  · rw [receive]
    split <;> rfl
  · rfl

/-- A reset is the last that arrives. -/
theorem ended_receive_of_reset
    {s : WireStream} {code : Nat} (h : s.ended = some (.reset code)) (event : PeerEvent) :
  (s.receive event).ended = some (.reset code)
  := by
  rcases event with fragment | (- | code') | code'
  · rw [receive, h]
    exact h
  · rw [receive, h]
    rfl
  · rw [receive, h]
    exact h
  · exact h

/-- Receives one event after the other. -/
def receiveAll (s : WireStream) (events : List PeerEvent) : WireStream := events.foldl receive s

theorem readStopped_receiveAll (s : WireStream) (events : List PeerEvent) :
  (s.receiveAll events).readStopped = s.readStopped
  := by
  induction events generalizing s with
  | nil => rfl
  | cons event events ih => exact (ih _).trans (s.readStopped_receive event)

theorem ended_receiveAll_of_reset
    {s : WireStream} {code : Nat} (h : s.ended = some (.reset code)) (events : List PeerEvent) :
  (s.receiveAll events).ended = some (.reset code)
  := by
  induction events generalizing s with
  | nil => exact h
  | cons event events ih => exact ih (ended_receive_of_reset h event)

theorem awaiting_receiveAll (s : WireStream) (events later : List PeerEvent) :
  (s.receiveAll events).awaiting later = s.awaiting (events ++ later)
    ∨ ∃ code, (s.receiveAll events).ended = some (.reset code)
  := by
  induction events generalizing s with
  | nil => exact .inl rfl
  | cons event events ih =>
    rcases s.awaiting_receive event (events ++ later) with heq | ⟨code, hreset⟩
    · exact (ih (s.receive event)).imp_left (·.trans heq)
    · exact .inr ⟨code, ended_receiveAll_of_reset hreset events⟩

/-! ### Turns -/

/-- The next turn; behind the last one nothing arrives any more. -/
def nextTurn (late : Nat) (turns : List Turn) : Turn := turns.headD ⟨late, [], .swift⟩

/-- The stream once the events of the next turn have arrived. -/
def inTurn (late : Nat) (s : WireStream) (turns : List Turn) : WireStream :=
  s.receiveAll (nextTurn late turns).events

/-- What an operation gives and leaves; one that waits leaves the stream as it is. -/
def answered {α : Type} (s : WireStream) (turns : List Turn) :
    Option (α × WireStream) → Option α × (WireStream × List Turn)
  | some (answer, s) => (some answer, (s, turns))
  | none => (none, (s, turns))

/-- How a stream answers in turns. -/
def answerInTurn (late : Nat) : Answering (WireStream × List Turn) := fun (s, turns) op =>
  answered (s.inTurn late turns) turns.tail
    ((s.inTurn late turns).answerAt? (nextTurn late turns).pace (nextTurn late turns).time op)

/-- The input that is left in the course of some turns. -/
def leftInTurn (s : WireStream × List Turn) : Bytes := s.1.awaiting (s.2.flatMap Turn.events)

section

variable (late : Nat) (s : WireStream) (turns : List Turn)

/-- What arrives in a turn leaves the input as it is, unless it is reset. -/
theorem leftInTurn_inTurn :
  leftInTurn (s.inTurn late turns, turns.tail) = leftInTurn (s, turns)
    ∨ ∃ code, (s.inTurn late turns).ended = some (.reset code)
  := by
  have harrive := s.awaiting_receiveAll (nextTurn late turns).events
    (turns.tail.flatMap Turn.events)
  cases turns with
  | nil => exact harrive
  | cons turn turns => exact harrive

theorem leftOrLost_inTurn :
  LeftOrLost leftInTurn (s, turns) (s.inTurn late turns, turns.tail)
  :=
  (s.leftInTurn_inTurn late turns).imp_right fun ⟨_, hreset⟩ => awaiting_of_reset hreset _

theorem read_answerInTurn (n : Nat) :
  (answerInTurn late).read (s, turns) n
    = answered (s.inTurn late turns) turns.tail
      ((s.inTurn late turns).read? (nextTurn late turns).time n)
  :=
  rfl

end

section

variable {before : WireStream × List Turn} {t : WireStream} {turns : List Turn} {now : Nat}
  (hintime : ¬ hasPassed now t.readDeadline) (hunstopped : ¬ t.readStopped.isSome)
  (hreset : ¬ ∃ code, t.ended = some (.reset code))
  (hleft : leftInTurn (t, turns) = leftInTurn before)

include hintime hunstopped hreset hleft

/-- A read comes upon the first fragment that has arrived, as far as it is not empty. -/
theorem meets_fragment
    {fragment : Bytes} {rest : List Bytes}
    (hfragments : t.arrived.dropWhile List.isEmpty = fragment :: rest) :
  Meets leftInTurn before fun n => answered t turns (t.read? now n)
  := by
  have hhead := List.head?_dropWhile_not List.isEmpty t.arrived
  have hinput := awaiting_of_unstopped hunstopped hreset (turns.flatMap Turn.events)
  rw [hfragments] at hhead
  rw [← flatten_dropWhile_isEmpty, hfragments] at hinput
  refine .piece fragment
    (fun n => ({ t with arrived := fragment.drop n :: rest }, turns)) ?_ ?_ ?_ ?_
  · rintro rfl
    simp at hhead
  · intro n hn
    rw [read?_of_unstopped hintime hunstopped hn, hfragments]
    rcases hended : t.ended with _ | (- | code)
    · rfl
    · rfl
    · exact absurd ⟨code, hended⟩ hreset
  · intro n _
    have hrest := awaiting_of_unstopped (s := { t with arrived := fragment.drop n :: rest })
      hunstopped hreset (turns.flatMap Turn.events)
    rw [← hleft, leftInTurn, leftInTurn, hinput, hrest, List.flatten_cons, List.flatten_cons,
      ← List.append_assoc, ← List.append_assoc, List.take_append_drop]
  · intro n hn
    rw [List.drop_of_length_le hn, List.drop_length]

/-- Where nothing has arrived, a read finds the end, or it waits, up to a deadline if one is
set. -/
theorem meets_nothing (hfragments : t.arrived.dropWhile List.isEmpty = []) :
  Meets leftInTurn before fun n => answered t turns (t.read? now n)
  := by
  have hread := fun (n : Nat) (hn : n ≠ 0) => read?_of_unstopped hintime hunstopped hn
  rw [hfragments] at hread
  rcases hended : t.ended with _ | (- | code)
  · cases htimed : t.readDeadline with
    | none =>
      refine .waiting (t, turns) (fun n hn => ?_) (.inl hleft)
      rw [hread n hn, hended, waitToRead, htimed]
      rfl
    | some deadline =>
      refine .failed deadlineError (t, turns) (fun n hn => ?_) (.inl hleft)
      rw [hread n hn, hended, waitToRead, htimed]
      rfl
  · have hnil : leftInTurn (t, turns) = [] := by
      rw [leftInTurn, awaiting_of_unstopped hunstopped hreset, ← flatten_dropWhile_isEmpty,
        hfragments, hended]
      rfl
    refine .ended (t, turns) (fun n hn => ?_) (hleft ▸ hnil) hnil
    rw [hread n hn, hended]
    rfl
  · exact absurd ⟨code, hended⟩ hreset

end

section

variable (late : Nat) (s : WireStream) (turns : List Turn)

theorem meets_inTurn :
  Meets leftInTurn (s, turns) ((answerInTurn late).read (s, turns))
  := by
  have hread := funext (read_answerInTurn late s turns)
  have hkept := s.leftOrLost_inTurn late turns
  have harrive := s.leftInTurn_inTurn late turns
  have hreadStopped : (s.inTurn late turns).readStopped = s.readStopped :=
    s.readStopped_receiveAll _
  generalize s.inTurn late turns = t at hread hkept harrive hreadStopped
  generalize (nextTurn late turns).time = now at hread
  rw [hread]
  by_cases hpassed : hasPassed now t.readDeadline
  · exact .failed deadlineError (t, turns.tail)
      (fun n _ => congrArg (answered t turns.tail) (if_pos hpassed)) hkept
  by_cases hstopped : t.readStopped.isSome
  · exact .ended (t, turns.tail)
      (fun n _ => congrArg (answered t turns.tail)
        ((if_neg hpassed).trans (if_pos (.inr hstopped))))
      (awaiting_of_stopped (hreadStopped ▸ hstopped) _) (awaiting_of_stopped hstopped _)
  by_cases hreset : ∃ code, t.ended = some (.reset code)
  · obtain ⟨code, hreset⟩ := hreset
    refine .failed (.stream (.reset code)) (t, turns.tail) (fun n hn => ?_) hkept
    rw [read?_of_unstopped hpassed hstopped hn, hreset]
    rfl
  have hleft := harrive.resolve_right hreset
  cases hfragments : t.arrived.dropWhile List.isEmpty with
  | cons fragment rest => exact meets_fragment hpassed hstopped hreset hleft hfragments
  | nil => exact meets_nothing hpassed hstopped hreset hleft hfragments

/-- A read into an empty buffer fails once its deadline has passed, and is answered at once until
then. -/
theorem meetsEmpty_inTurn :
  MeetsEmpty leftInTurn (s, turns) ((answerInTurn late).read (s, turns))
  := by
  have hread := read_answerInTurn late s turns
  have hkept := s.leftOrLost_inTurn late turns
  generalize s.inTurn late turns = t at hread hkept
  generalize (nextTurn late turns).time = now at hread
  by_cases hpassed : hasPassed now t.readDeadline
  · have hfailed : ∀ n, (answerInTurn late).read (s, turns) n
        = (some (.error deadlineError), (t, turns.tail)) := by
      intro n
      rw [hread, read?, if_pos hpassed]
      rfl
    apply MeetsEmpty.asOne
    · rw [hfailed, hfailed]
    · rw [hfailed]
      rfl
  · refine .atOnce (t, turns.tail) ?_ hkept
    rw [hread, read?, if_neg hpassed, if_pos (.inl rfl)]
    rfl

end

/-- What leaves the input alone leaves what has arrived, unless it stops reading. -/
theorem awaiting_answerAt?
    {pace : Pace} {now : Nat} {s : WireStream} {op : StreamOp} (h : op.Aside)
    {r : op.Answer × WireStream} (hanswer : s.answerAt? pace now op = some r)
    (events : List PeerEvent) :
  r.2.awaiting events = s.awaiting events ∨ r.2.awaiting events = []
  := by
  cases op with
  | read | drain => cases h
  | write data =>
    obtain ⟨sent, heq⟩ := write?_eq hanswer
    rw [heq]
    exact .inl rfl
  | shutdown =>
    obtain ⟨side, signals, heq⟩ := shutdown?_eq hanswer
    rw [heq]
    exact .inl rfl
  | cancelWrite code =>
    cases hanswer
    obtain ⟨side, signals, heq⟩ := s.cancelWrite_eq code
    rw [heq]
    exact .inl rfl
  | cancelRead code =>
    cases hanswer
    right
    apply awaiting_of_stopped
    show (s.readStopped.or _).isSome
    cases s.readStopped <;> rfl
  | id | token | flush | setReadDeadline | setWriteDeadline =>
    cases hanswer
    exact .inl rfl

/-- A stream of a connection, whose operations are done in turns. -/
def feed (late : Nat) : Feed (WireStream × List Turn) where
  answer := answerInTurn late
  left := leftInTurn
  meets s := meets_inTurn late s.1 s.2
  meetsEmpty s := meetsEmpty_inTurn late s.1 s.2
  aside := by
    rintro ⟨s, turns⟩ op h
    have hkept := s.leftOrLost_inTurn late turns
    show LeftOrLost leftInTurn (s, turns) (answered (s.inTurn late turns) turns.tail _).2
    cases hanswer : (s.inTurn late turns).answerAt? (nextTurn late turns).pace
      (nextTurn late turns).time op with
    | none => exact hkept
    | some r =>
      rcases awaiting_answerAt? h hanswer (turns.tail.flatMap Turn.events) with heq | hnil
      · exact hkept.imp heq.trans heq.trans
      · exact .inr hnil

end WireStream

end StreamCall
