import StreamCall.Proofs.Stream.Wire

/-!
# Deeds

What has been done to a stream of a connection is told by its `Deed`s, the operations on it with
their times and answers.  The first that closes or resets the stream decides which signal the peer
is sent (`firstSignal?`), and the accepted writes tell which bytes.

Closing takes two steps: its signal is queued, and then it is waited for until the peer has
acknowledged it.  A closing whose deadline passes in between has been broken off (`BrokenOff`); what
it has begun may come to its end or not, and a reset may come in its place or behind it
(`Aftermath`).  A stream `Accounts` for some deeds if it is as they have left it, and every
operation keeps it so, however slow the network is (`Accounts.answer`).
-/

namespace StreamCall

/-! ### Deeds -/

/-- An operation on a stream, with its time and its answer. -/
structure Deed where
  time : Nat
  op : StreamOp
  answer : op.Answer

namespace Deed

/-- The signal that an operation decides on, unless one has been decided on before. -/
def signal? : Deed → Option Signal
  | ⟨_, .shutdown, .ok _⟩ => some .finish
  | ⟨_, .cancelWrite code, _⟩ => some (.reset (min code (Nat.pow 2 62 - 1)))
  | _ => none

/-- The bytes that have been accepted. -/
def accepted : Deed → Bytes
  | ⟨_, .write data, .ok taken⟩ => data.take taken
  | _ => []

/-- The deadline for writing, given the one before. -/
def deadline (before : Option Nat) : Deed → Option Nat
  | ⟨_, .setWriteDeadline deadline, _⟩ => deadline
  | _ => before

/-- Whether an operation is a closing that the deadline for writing has broken off: it was still to
come when the operation began. -/
def BreaksOff (deadline : Option Nat) : Deed → Prop
  | ⟨now, .shutdown, .error _⟩ => WireStream.hasPassed now deadline = false
  | _ => False

end Deed

/-- The first signal that is decided on. -/
def firstSignal? (deeds : List Deed) : Option Signal := deeds.findSome? Deed.signal?

/-- All bytes that have been accepted. -/
def acceptedBytes (deeds : List Deed) : Bytes := deeds.flatMap Deed.accepted

/-- The deadline for writing that is in force. -/
def deadlineAfter (deeds : List Deed) : Option Nat := deeds.foldl Deed.deadline none

/-- Whether closing the stream has been broken off before any signal was decided on. -/
def BrokenOff (deeds : List Deed) : Prop :=
  ∃ before deed after, deeds = before ++ deed :: after ∧ firstSignal? before = none
    ∧ deed.BreaksOff (deadlineAfter before)

theorem firstSignal?_append (deeds : List Deed) (deed : Deed) :
  firstSignal? (deeds ++ [deed]) = (firstSignal? deeds).or deed.signal?
  := by
  rw [firstSignal?, List.findSome?_append, List.findSome?_singleton, firstSignal?]

theorem acceptedBytes_append (deeds : List Deed) (deed : Deed) :
  acceptedBytes (deeds ++ [deed]) = acceptedBytes deeds ++ deed.accepted
  := by
  simp [acceptedBytes]

theorem deadlineAfter_append (deeds : List Deed) (deed : Deed) :
  deadlineAfter (deeds ++ [deed]) = deed.deadline (deadlineAfter deeds)
  := by
  simp [deadlineAfter]

theorem brokenOff_append (deeds : List Deed) (deed : Deed) :
  BrokenOff (deeds ++ [deed])
    ↔ BrokenOff deeds ∨ firstSignal? deeds = none ∧ deed.BreaksOff (deadlineAfter deeds)
  := by
  constructor
  · rintro ⟨before, d, after, heq, hnone, hbreaks⟩
    rcases List.eq_nil_or_concat after with rfl | ⟨after, last, rfl⟩
    · obtain ⟨rfl, hlast⟩ := List.append_inj' heq rfl
      cases hlast
      exact .inr ⟨hnone, hbreaks⟩
    · rw [List.concat_eq_append, ← List.cons_append, ← List.append_assoc] at heq
      obtain ⟨rfl, -⟩ := List.append_inj' heq rfl
      exact .inl ⟨before, d, after, rfl, hnone, hbreaks⟩
  · rintro (⟨before, d, after, rfl, hnone, hbreaks⟩ | ⟨hnone, hbreaks⟩)
    · refine ⟨before, d, after ++ [deed], ?_, hnone, hbreaks⟩
      rw [List.append_assoc, List.cons_append]
    · exact ⟨deeds, deed, [], rfl, hnone, hbreaks⟩

/-- Which signals may have been sent when closing has been broken off and one has been decided on
since.  What was begun may have come to its end; if not, a reset comes in its place or behind
it. -/
inductive Aftermath : Signal → List Signal → Prop where
  | finished (signal : Signal) : Aftermath signal [.finish]
  | instead (code : Nat) : Aftermath (.reset code) [.reset code]
  | behind (code : Nat) : Aftermath (.reset code) [.finish, .reset code]

/-- Which signals have been sent when one has been decided on. -/
structure Sends (deeds : List Deed) (signal : Signal) (signals : List Signal) : Prop where
  once : ¬ BrokenOff deeds → signals = [signal]
  broken : BrokenOff deeds → Aftermath signal signals

theorem Sends.of_brokenOff
    {deeds : List Deed} {signal : Signal} {signals : List Signal} (hbroken : BrokenOff deeds)
    (h : Aftermath signal signals) :
  Sends deeds signal signals
  :=
  ⟨fun hnot => absurd hbroken hnot, fun _ => h⟩

theorem Sends.of_not_brokenOff
    {deeds : List Deed} (hnot : ¬ BrokenOff deeds) (signal : Signal) :
  Sends deeds signal [signal]
  :=
  ⟨fun _ => rfl, fun hbroken => absurd hbroken hnot⟩

theorem Sends.congr
    {deeds deeds' : List Deed} {signal : Signal} {signals : List Signal}
    (hbroken : BrokenOff deeds' ↔ BrokenOff deeds) (h : Sends deeds signal signals) :
  Sends deeds' signal signals
  :=
  ⟨fun hnot => h.once (mt hbroken.mpr hnot), fun hb => h.broken (hbroken.mp hb)⟩

/-- Whether the side that is written stands as some deeds have left it. -/
inductive Stands (deeds : List Deed) (s : WireStream) : Prop where
  | untouched (hside : s.side = .open) (hsignals : s.signals = [])
    (hnone : firstSignal? deeds = none) (hbroken : ¬ BrokenOff deeds)
  | begun (headway : Headway) (hside : s.side = .closing headway)
    (hsignals : s.signals = if headway = .queued then [] else [.finish])
    (hnone : firstSignal? deeds = none) (hbroken : BrokenOff deeds)
  | closed (signal : Signal) (hside : s.side = .closed)
    (hsome : firstSignal? deeds = some signal) (hsends : Sends deeds signal s.signals)

namespace Stands

variable {deeds : List Deed} {s s' : WireStream} {deed : Deed}

theorem congr (hside : s'.side = s.side) (hsignals : s'.signals = s.signals) (h : Stands deeds s) :
  Stands deeds s'
  := by
  cases h with
  | untouched hopen hempty hnone hbroken =>
    exact .untouched (hside.trans hopen) (hsignals.trans hempty) hnone hbroken
  | begun headway hclosing hsent hnone hbroken =>
    exact .begun headway (hside.trans hclosing) (hsignals.trans hsent) hnone hbroken
  | closed signal hclosed hsome hsends =>
    exact .closed signal (hside.trans hclosed) hsome (hsignals ▸ hsends)

/-- A deed that neither decides on a signal nor breaks closing off leaves everything as it is. -/
theorem snoc_idle
    (h : Stands deeds s) (hsignal : deed.signal? = none)
    (hbreaks : ¬ deed.BreaksOff (deadlineAfter deeds)) :
  Stands (deeds ++ [deed]) s
  := by
  have hfirst : firstSignal? (deeds ++ [deed]) = firstSignal? deeds := by
    rw [firstSignal?_append, hsignal, Option.or_none]
  have hiff : BrokenOff (deeds ++ [deed]) ↔ BrokenOff deeds := by
    simp [brokenOff_append, hbreaks]
  cases h with
  | untouched hside hsignals hnone hbroken =>
    exact .untouched hside hsignals (hfirst.trans hnone) (mt hiff.mp hbroken)
  | begun headway hside hsignals hnone hbroken =>
    exact .begun headway hside hsignals (hfirst.trans hnone) (hiff.mpr hbroken)
  | closed signal hside hsome hsends =>
    exact .closed signal hside (hfirst.trans hsome) (hsends.congr hiff)

/-- Once a signal has been decided on, nothing is changed any more. -/
theorem snoc_closed (h : Stands deeds s) (hclosed : s.side = .closed) (deed : Deed) :
  Stands (deeds ++ [deed]) s
  := by
  cases h with
  | untouched hside => cases hside.symm.trans hclosed
  | begun headway hside => cases hside.symm.trans hclosed
  | closed signal hside hsome hsends =>
    have hiff : BrokenOff (deeds ++ [deed]) ↔ BrokenOff deeds := by
      simp [brokenOff_append, hsome]
    refine .closed signal hside ?_ (hsends.congr hiff)
    rw [firstSignal?_append, hsome, Option.some_or]

/-- The signal that the side is finished gets on. -/
theorem advance (h : Stands deeds s) (headway : Headway) :
  Stands deeds (s.advance headway)
  := by
  rw [WireStream.advance]
  cases h with
  | untouched hside hsignals hnone hbroken =>
    rw [hside]
    exact .untouched hside hsignals hnone hbroken
  | begun reached hside hsignals hnone hbroken =>
    rw [hside]
    cases reached with
    | queued =>
      dsimp only
      split
      · exact .begun .queued hside hsignals hnone hbroken
      · next hsent =>
        refine .begun headway rfl ?_ hnone hbroken
        rw [if_neg hsent, hsignals]
        rfl
    | sent =>
      dsimp only
      split
      · exact .begun .acknowledged rfl hsignals hnone hbroken
      · exact .begun .sent hside hsignals hnone hbroken
    | acknowledged => exact .begun .acknowledged hside hsignals hnone hbroken
  | closed signal hside hsome hsends =>
    rw [hside]
    exact .closed signal hside hsome hsends

/-- A closing that is broken off has queued the signal that the side is finished. -/
theorem finish
    (h : Stands deeds s) (hopen : s.side ≠ .closed) (hsignal : deed.signal? = none)
    (hbreaks : deed.BreaksOff (deadlineAfter deeds)) :
  Stands (deeds ++ [deed]) s.finish
  := by
  have hfirst : firstSignal? (deeds ++ [deed]) = firstSignal? deeds := by
    rw [firstSignal?_append, hsignal, Option.or_none]
  have hbroken : firstSignal? deeds = none → BrokenOff (deeds ++ [deed]) :=
    fun hnone => (brokenOff_append deeds deed).mpr (.inr ⟨hnone, hbreaks⟩)
  rw [WireStream.finish]
  cases h with
  | untouched hside hsignals hnone =>
    rw [if_pos hside]
    exact .begun .queued rfl hsignals (hfirst.trans hnone) (hbroken hnone)
  | begun reached hside hsignals hnone =>
    rw [if_neg (by simp [hside])]
    exact .begun reached hside hsignals (hfirst.trans hnone) (hbroken hnone)
  | closed signal hside => exact absurd hside hopen

theorem of_acknowledged (h : Stands deeds s) (hside : s.side = .closing .acknowledged) :
  s.signals = [.finish] ∧ firstSignal? deeds = none
  := by
  cases h with
  | untouched hopen => cases hopen.symm.trans hside
  | begun headway hclosing hsignals hnone =>
    cases hclosing.symm.trans hside
    exact ⟨hsignals, hnone⟩
  | closed signal hclosed => cases hclosed.symm.trans hside

theorem ne_closed (h : Stands deeds s) (hnone : firstSignal? deeds = none) :
  s.side ≠ .closed
  := by
  intro hclosed
  cases h with
  | untouched hside => cases hside.symm.trans hclosed
  | begun headway hside => cases hside.symm.trans hclosed
  | closed signal hside hsome => cases hnone.symm.trans hsome

/-- Closing sends its signal if it is in time, and has been begun if it is not. -/
theorem shutdown
    (h : Stands deeds s) (hdeadline : s.writeDeadline = deadlineAfter deeds)
    (hunasked : s.askedToStop = none) {now : Nat} {headway : Headway}
    {answer : Except IoError Unit} (hshutdown : s.shutdown? now headway = some (answer, s')) :
  Stands (deeds ++ [⟨now, .shutdown, answer⟩]) s'
  := by
  rw [WireStream.shutdown?] at hshutdown
  split at hshutdown
  · next hclosed =>
    cases hshutdown
    exact h.snoc_closed hclosed _
  · next hopen =>
    split at hshutdown
    · next hpassed =>
      cases hshutdown
      apply h.snoc_idle rfl
      rw [Deed.BreaksOff, ← hdeadline, hpassed]
      simp
    · next hnot =>
      rw [hunasked] at hshutdown
      dsimp only at hshutdown
      rw [hdeadline, Bool.not_eq_true] at hnot
      -- Until it is acknowledged it is as if it had been broken off.
      let broken : Deed := ⟨now, .shutdown, .error WireStream.deadlineError⟩
      have hbreaks : broken.BreaksOff (deadlineAfter deeds) := hnot
      have hbegun : Stands (deeds ++ [broken]) (s.finish.advance headway) :=
        (h.finish hopen rfl hbreaks).advance headway
      split at hshutdown
      · next hacknowledged =>
        cases hshutdown
        obtain ⟨hsignals, hnone⟩ := hbegun.of_acknowledged hacknowledged
        rw [firstSignal?_append, Option.or_eq_none_iff] at hnone
        refine .closed .finish rfl ?_ ⟨fun _ => hsignals, fun _ => hsignals ▸ .finished .finish⟩
        rw [firstSignal?_append, hnone.1]
        rfl
      · obtain ⟨d, -, hd⟩ := Option.map_eq_some_iff.mp hshutdown
        cases hd
        exact hbegun

/-- A reset comes instead of the signal that the side is finished, or behind it, unless all has
been acknowledged. -/
theorem cancelWrite (h : Stands deeds s) (now code : Nat) :
  Stands (deeds ++ [⟨now, .cancelWrite code, ()⟩]) (s.cancelWrite code)
  := by
  have hiff : BrokenOff (deeds ++ [⟨now, .cancelWrite code, ()⟩]) ↔ BrokenOff deeds := by
    simp [brokenOff_append, Deed.BreaksOff]
  have hfirst : firstSignal? deeds = none →
      firstSignal? (deeds ++ [⟨now, .cancelWrite code, ()⟩])
        = some (.reset (Transport.capCode code)) := by
    intro hnone
    rw [firstSignal?_append, hnone]
    rfl
  rw [WireStream.cancelWrite]
  cases h with
  | untouched hside hsignals hnone hbroken =>
    rw [hside, hsignals]
    exact .closed _ rfl (hfirst hnone) (.of_not_brokenOff (mt hiff.mp hbroken) _)
  | begun headway hside hsignals hnone hbroken =>
    rw [hside, hsignals]
    cases headway with
    | queued => exact .closed _ rfl (hfirst hnone) (.of_brokenOff (hiff.mpr hbroken) (.instead _))
    | sent => exact .closed _ rfl (hfirst hnone) (.of_brokenOff (hiff.mpr hbroken) (.behind _))
    | acknowledged =>
      exact .closed _ rfl (hfirst hnone) (.of_brokenOff (hiff.mpr hbroken) (.finished _))
  | closed signal hside hsome hsends =>
    have hclosed : Stands deeds s := .closed signal hside hsome hsends
    rw [hside]
    exact hclosed.snoc_closed hside _

/-- What a stream that is let go of has sent. -/
theorem drop (h : Stands deeds s) :
  Sends deeds ((firstSignal? deeds).getD (.reset 0)) s.drop.signals
  := by
  rw [WireStream.drop, WireStream.cancelWrite]
  cases h with
  | untouched hside hsignals hnone hbroken =>
    rw [hside, hsignals, hnone]
    exact .of_not_brokenOff hbroken _
  | begun headway hside hsignals hnone hbroken =>
    rw [hside, hsignals, hnone]
    apply Sends.of_brokenOff hbroken
    cases headway with
    | queued => exact .instead 0
    | sent => exact .behind 0
    | acknowledged => exact .finished _
  | closed signal hside hsome hsends =>
    rw [hside, hsome]
    exact hsends

end Stands

namespace WireStream

/-- Whether the side that is written is as some deeds have left it. -/
structure Accounts (deeds : List Deed) (s : WireStream) : Prop where
  stands : Stands deeds s
  sent : s.sent = acceptedBytes deeds
  deadline : s.writeDeadline = deadlineAfter deeds
  unasked : s.askedToStop = none

/-- Whether two streams have the same side that is written. -/
structure SameSide (s s' : WireStream) : Prop where
  side : s'.side = s.side
  signals : s'.signals = s.signals
  sent : s'.sent = s.sent
  deadline : s'.writeDeadline = s.writeDeadline
  asked : s'.askedToStop = s.askedToStop

theorem SameSide.refl (s : WireStream) : s.SameSide s := ⟨rfl, rfl, rfl, rfl, rfl⟩

theorem Accounts.of_sameSide
    {deeds : List Deed} {s s' : WireStream} (h : Accounts deeds s) (hsame : s.SameSide s') :
  Accounts deeds s'
  := by
  constructor
  · exact h.stands.congr hsame.side hsame.signals
  · rw [hsame.sent, h.sent]
  · rw [hsame.deadline, h.deadline]
  · rw [hsame.asked, h.unasked]

theorem Accounts.advance
    {deeds : List Deed} {s : WireStream} (h : Accounts deeds s) (headway : Headway) :
  Accounts deeds (s.advance headway)
  := by
  have hstands := h.stands.advance headway
  obtain ⟨side, signals, heq⟩ := s.advance_eq headway
  rw [heq] at hstands ⊢
  exact ⟨hstands, h.sent, h.deadline, h.unasked⟩

theorem sameSide_read?
    {now n : Nat} {s s' : WireStream} {answer : Except IoError Bytes}
    (h : s.read? now n = some (answer, s')) :
  s.SameSide s'
  := by
  rw [read?] at h
  split at h
  · cases h
    apply SameSide.refl
  · split at h
    · cases h
      apply SameSide.refl
    · split at h
      · cases h
        apply SameSide.refl
      · cases h
        exact ⟨rfl, rfl, rfl, rfl, rfl⟩
      · cases h
        apply SameSide.refl
      · obtain ⟨e, -, he⟩ := Option.map_eq_some_iff.mp h
        cases he
        apply SameSide.refl

theorem sameSide_drain?
    {now : Nat} {upTo : Option Nat} {s s' : WireStream} {d : Drained}
    (h : s.drain? now upTo = some (d, s')) :
  s.SameSide s'
  := by
  rw [drain?] at h
  split at h
  · cases h
    apply SameSide.refl
  · split at h
    · cases h
      apply SameSide.refl
    · split at h
      · cases h
        apply SameSide.refl
      · split at h
        · cases h
          apply SameSide.refl
        · dsimp only at h
          split at h
          · cases h
            exact ⟨rfl, rfl, rfl, rfl, rfl⟩
          · split at h
            · cases h
              exact ⟨rfl, rfl, rfl, rfl, rfl⟩
            · obtain ⟨e, -, he⟩ := Option.map_eq_some_iff.mp h
              cases he
              exact ⟨rfl, rfl, rfl, rfl, rfl⟩

theorem sameSide_receive
    {event : PeerEvent} (h : ∀ code, event ≠ .stop code) (s : WireStream) :
  s.SameSide (s.receive event)
  := by
  cases event with
  | send fragment =>
    rw [receive]
    split
    · exact ⟨rfl, rfl, rfl, rfl, rfl⟩
    · apply SameSide.refl
  | signal signal =>
    cases signal with
    | finish => exact ⟨rfl, rfl, rfl, rfl, rfl⟩
    | reset code =>
      rw [receive]
      split
      · exact ⟨rfl, rfl, rfl, rfl, rfl⟩
      · apply SameSide.refl
  | stop code => exact (h code rfl).elim

section

variable {deeds : List Deed} {s s' : WireStream} (h : Accounts deeds s)

include h

/-- One more deed is accounted for by what it does. -/
theorem Accounts.snoc
    {deed : Deed} (hstands : Stands (deeds ++ [deed]) s')
    (hsent : s'.sent = s.sent ++ deed.accepted)
    (hdeadline : s'.writeDeadline = deed.deadline s.writeDeadline)
    (hunasked : s'.askedToStop = none) :
  Accounts (deeds ++ [deed]) s'
  := by
  constructor
  · exact hstands
  · rw [hsent, h.sent, acceptedBytes_append]
  · rw [hdeadline, h.deadline, deadlineAfter_append]
  · exact hunasked

/-- A deed that concerns the other side is accounted for by the side as it was. -/
theorem Accounts.snoc_sameSide
    (hsame : s.SameSide s') {deed : Deed} (hsignal : deed.signal? = none)
    (hbreaks : ¬ deed.BreaksOff (deadlineAfter deeds)) (haccepted : deed.accepted = [])
    (hdeadline : ∀ before, deed.deadline before = before) :
  Accounts (deeds ++ [deed]) s'
  := by
  apply h.snoc
  · exact (h.stands.snoc_idle hsignal hbreaks).congr hsame.side hsame.signals
  · rw [haccepted, List.append_nil, hsame.sent]
  · rw [hdeadline, hsame.deadline]
  · rw [hsame.asked, h.unasked]

theorem Accounts.write
    {now : Nat} {room : Option Nat} {data : Bytes} {answer : Except IoError Nat}
    (hwrite : s.write? now room data = some (answer, s')) :
  Accounts (deeds ++ [⟨now, .write data, answer⟩]) s'
  := by
  have hidle : ∀ (answer : Except IoError Nat), Stands (deeds ++ [⟨now, .write data, answer⟩]) s :=
    fun answer => h.stands.snoc_idle rfl not_false
  have hfailed : ∀ e, Accounts (deeds ++ [⟨now, .write data, .error e⟩]) s :=
    fun e => h.snoc (hidle _) (List.append_nil _).symm rfl h.unasked
  rw [write?] at hwrite
  split at hwrite
  · cases hwrite
    exact hfailed _
  · split at hwrite
    · cases hwrite
      exact hfailed _
    · have hunasked := h.unasked
      rw [hunasked] at hwrite
      dsimp only at hwrite
      split at hwrite
      · obtain ⟨d, -, hd⟩ := Option.map_eq_some_iff.mp hwrite
        cases hd
        exact hfailed _
      · cases hwrite
        apply h.snoc
        · exact Stands.congr (s := s) rfl rfl (hidle _)
        · rw [Deed.accepted, List.length_take, ← List.take_eq_take_min]
        · rfl
        · rfl

/-- Every operation is accounted for. -/
theorem Accounts.answer
    {pace : Pace} {now : Nat} {op : StreamOp} {answer : op.Answer}
    (hanswer : s.answerAt? pace now op = some (answer, s')) :
  Accounts (deeds ++ [⟨now, op, answer⟩]) s'
  := by
  cases op with
  | read n => exact h.snoc_sameSide (sameSide_read? hanswer) rfl not_false rfl fun _ => rfl
  | drain upTo => exact h.snoc_sameSide (sameSide_drain? hanswer) rfl not_false rfl fun _ => rfl
  | write data => exact h.write hanswer
  | shutdown =>
    have hstands := h.stands.shutdown h.deadline h.unasked hanswer
    obtain ⟨side, signals, rfl⟩ := shutdown?_eq hanswer
    exact h.snoc hstands (List.append_nil _).symm rfl h.unasked
  | cancelWrite code =>
    have hstands := h.stands.cancelWrite now code
    cases hanswer
    obtain ⟨side, signals, heq⟩ := s.cancelWrite_eq code
    rw [heq] at hstands ⊢
    exact h.snoc hstands (List.append_nil _).symm rfl h.unasked
  | setWriteDeadline deadline =>
    cases hanswer
    have hstands : Stands (deeds ++ [⟨now, .setWriteDeadline deadline, ()⟩]) s :=
      h.stands.snoc_idle rfl not_false
    exact h.snoc (.congr (s := s) rfl rfl hstands) (List.append_nil _).symm rfl h.unasked
  | id | token | flush | cancelRead | setReadDeadline =>
    cases hanswer
    apply h.snoc_sameSide
    · exact ⟨rfl, rfl, rfl, rfl, rfl⟩
    · rfl
    · exact not_false
    · rfl
    · exact fun _ => rfl

end

/-- What a stream that is let go of has sent. -/
theorem Accounts.sent_drop {deeds : List Deed} {s : WireStream} (h : Accounts deeds s) :
  s.drop.sent = acceptedBytes deeds
  := by
  obtain ⟨side, signals, heq⟩ := s.cancelWrite_eq 0
  rw [drop, heq]
  exact h.sent

end WireStream

end StreamCall
