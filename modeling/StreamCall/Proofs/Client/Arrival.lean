import Mathlib.Tactic.Use
import StreamCall.Client.Line
import StreamCall.Proofs.Stream.Wire

/-!
# What arrives on the stream of a call

What will come of a stream does not depend on how much of it has arrived: how the peer ends what
it sends is `ending?`, whether it asks to stop is `stopping?`, and how much it takes is `capacity`.
An operation can wait only as long as something is still to come (`exists_await`).

What is left to read is `outstanding`.  In whatever pieces it comes, reads of at most so many bytes
find what the peer has sent, and one read more than there are bytes gets to the end
(`Delivers.collectWithin`).
-/

namespace StreamCall.Client

variable {ν α : Type}

/-! ### Arrivals -/

namespace Arrival

/-- The signal that arrives. -/
def signal? : Arrival → Option Signal
  | .event (.signal signal) => some signal
  | _ => none

/-- The code of the wish to stop that arrives. -/
def stop? : Arrival → Option Nat
  | .event (.stop code) => some code
  | _ => none

/-- The room that is made. -/
def added : Arrival → Nat
  | .room bytes => bytes
  | .event _ => 0

/-- The room that is made by some arrivals together. -/
def addedBy : List Arrival → Nat
  | [] => 0
  | a :: rest => a.added + addedBy rest

theorem addedBy_append (arrivals rest : List Arrival) :
  addedBy (arrivals ++ rest) = addedBy arrivals + addedBy rest
  := by
  induction arrivals with
  | nil => simp [addedBy]
  | cons a arrivals ih =>
    rw [List.cons_append, addedBy, addedBy, ih]
    omega

/-- The bytes that come before the first signal. -/
def body : List Arrival → Bytes
  | [] => []
  | a :: rest => if a.signal?.isSome then [] else a.data ++ body rest

/-- They are among all that come. -/
theorem length_body_le (arrivals : List Arrival) :
  (body arrivals).length ≤ (arrivals.flatMap data).length
  := by
  induction arrivals with
  | nil => exact Nat.le_refl 0
  | cons a arrivals ih =>
    rw [body, List.flatMap_cons, List.length_append]
    split
    · exact Nat.zero_le _
    · rw [List.length_append]
      omega

theorem findSome?_cons_eq_or {γ : Type} (f : Arrival → Option γ) (a : Arrival)
    (rest : List Arrival) :
  (a :: rest).findSome? f = (f a).or (rest.findSome? f)
  := by
  rw [List.findSome?_cons]
  cases f a <;> rfl

end Arrival

namespace Line

/-- How the peer ends what it sends. -/
def ending? (l : Line) : Option Signal :=
  l.stream.ended.or (l.upcoming.flatten.findSome? Arrival.signal?)

/-- The code with which the peer asks to send no more, sooner or later. -/
def stopping? (l : Line) : Option Nat :=
  l.stream.askedToStop.or (l.upcoming.flatten.findSome? Arrival.stop?)

/-- How many bytes there will be room for in all. -/
def capacity (l : Line) : Nat :=
  l.room + Arrival.addedBy l.upcoming.flatten

/-- What an arrival changes. -/
theorem receive_eq (l : Line) (a : Arrival) :
  l.receive a = { l with
    stream := { l.stream with
      arrived := (l.receive a).stream.arrived
      ended := l.stream.ended.or a.signal?
      askedToStop := l.stream.askedToStop.or a.stop? }
    room := l.room + a.added }
  := by
  obtain ⟨⟨id, token, arrived, ended, readStopped, askedToStop⟩, room, upcoming⟩ := l
  obtain (fragment | (- | code) | code) | bytes := a <;> cases ended <;> cases askedToStop <;> rfl

/-- What some arrivals change, one after the other. -/
theorem foldl_receive_eq (arrivals : List Arrival) (l : Line) :
  arrivals.foldl receive l = { l with
    stream := { l.stream with
      arrived := (arrivals.foldl receive l).stream.arrived
      ended := l.stream.ended.or (arrivals.findSome? Arrival.signal?)
      askedToStop := l.stream.askedToStop.or (arrivals.findSome? Arrival.stop?) }
    room := l.room + Arrival.addedBy arrivals }
  := by
  induction arrivals generalizing l with
  | nil => simp [Arrival.addedBy]
  | cons a arrivals ih =>
    rw [List.foldl_cons, ih, receive_eq]
    simp only [Arrival.findSome?_cons_eq_or, Option.or_assoc, Arrival.addedBy, Nat.add_assoc]

/-! ### What is still to come -/

section After

variable {l : Line} {arrivals : List Arrival} {upcoming : List (List Arrival)}

theorem upcoming_after :
  (l.after arrivals upcoming).upcoming = upcoming
  := by
  rw [after, foldl_receive_eq]

theorem ending?_after (h : l.upcoming = arrivals :: upcoming) :
  (l.after arrivals upcoming).ending? = l.ending?
  := by
  rw [ending?, ending?, upcoming_after, after, foldl_receive_eq, h, List.flatten_cons,
    List.findSome?_append, Option.or_assoc]

theorem stopping?_after (h : l.upcoming = arrivals :: upcoming) :
  (l.after arrivals upcoming).stopping? = l.stopping?
  := by
  rw [stopping?, stopping?, upcoming_after, after, foldl_receive_eq, h, List.flatten_cons,
    List.findSome?_append, Option.or_assoc]

theorem capacity_after (h : l.upcoming = arrivals :: upcoming) :
  (l.after arrivals upcoming).capacity = l.capacity
  := by
  rw [capacity, capacity, upcoming_after, after, foldl_receive_eq, h, List.flatten_cons,
    Arrival.addedBy_append, Nat.add_assoc]

end After

/-- An operation is answered, or it still waits when nothing is to come. -/
theorem await_cases
    {now : Nat} (op : StreamOp) (P : Line → Prop) {Q : op.Answer → Line → Prop}
    (hafter : ∀ l arrivals upcoming, l.upcoming = arrivals :: upcoming → P l →
      P (l.after arrivals upcoming))
    (hanswer : ∀ l, P l → (∃ answer l', l.answer? now op = some (answer, l') ∧ Q answer l')
      ∨ l.answer? now op = none)
    {l : Line} (h : P l) :
  (∃ answer l', l.await? now op = some (answer, l') ∧ Q answer l')
  ∨ l.await? now op = none ∧ ∃ l', P l' ∧ l'.upcoming = [] ∧ l'.answer? now op = none
  := by
  suffices ∀ upcoming l, l.upcoming = upcoming → P l →
      (∃ answer l', l.answerDuring? now op upcoming = some (answer, l') ∧ Q answer l')
      ∨ l.answerDuring? now op upcoming = none
        ∧ ∃ l', P l' ∧ l'.upcoming = [] ∧ l'.answer? now op = none from
    this l.upcoming l rfl h
  intro upcoming
  induction upcoming with
  | nil =>
    intro l hupcoming h
    apply (hanswer l h).imp_right
    intro hwaiting
    exact ⟨hwaiting, l, h, hupcoming, hwaiting⟩
  | cons arrivals upcoming ih =>
    intro l hupcoming h
    have hnext := hafter l arrivals upcoming hupcoming h
    rw [answerDuring?]
    obtain ⟨answer, l', hanswered, hQ⟩ | hwaiting := hanswer _ hnext
    · left
      use answer, l'
      rw [hanswered]
      exact ⟨rfl, hQ⟩
    · rw [hwaiting]
      exact ih _ upcoming_after hnext

/-- An operation is answered if something is still to come whenever it waits. -/
theorem exists_await
    {now : Nat} (op : StreamOp) (P : Line → Prop) {Q : op.Answer → Line → Prop}
    (hafter : ∀ l arrivals upcoming, l.upcoming = arrivals :: upcoming → P l →
      P (l.after arrivals upcoming))
    (hanswer : ∀ l, P l → (∃ answer l', l.answer? now op = some (answer, l') ∧ Q answer l')
      ∨ l.answer? now op = none ∧ l.upcoming ≠ [])
    {l : Line} (h : P l) :
  ∃ answer l', l.await? now op = some (answer, l') ∧ Q answer l'
  := by
  obtain hanswered | ⟨-, l', hl', hupcoming, hwaiting⟩ :=
    await_cases op P hafter (fun l h => (hanswer l h).imp_right And.left) h
  · exact hanswered
  · exfalso
    obtain ⟨answer, l'', hanswered, -⟩ | ⟨-, hmore⟩ := hanswer l' hl'
    · rw [hwaiting] at hanswered
      cases hanswered
    · exact hmore hupcoming

theorem run_await
    {now : Nat} {l l' : Line} {op : StreamOp} {answer : op.Answer}
    (h : l.await? now op = some (answer, l')) (next : op.Answer → Stream.Use α) :
  (Program.step (S := Streaming) op next).run (await? now) l = (next answer).run (await? now) l'
  :=
  Program.run_step (S := Streaming) h next

/-! ### What is left to read -/

/-- What has come and is still to come before the signal, unless a reset discards it. -/
def outstanding (l : Line) : Bytes :=
  l.stream.arrived.flatten
    ++ if l.stream.ended.isSome then [] else Arrival.body l.upcoming.flatten

theorem length_outstanding_le_unread (l : Line) :
  l.outstanding.length ≤ l.unread
  := by
  have hbody := Arrival.length_body_le l.upcoming.flatten
  rw [outstanding, unread, List.length_append]
  split
  · exact Nat.add_le_add_left (Nat.zero_le _) _
  · omega

/-- An arrival changes nothing about it, but for a reset. -/
theorem outstanding_receive
    {l : Line} {a : Arrival} {arrivals : List Arrival} {upcoming : List (List Arrival)}
    (hupcoming : l.upcoming = (a :: arrivals) :: upcoming) :
  outstanding { l.receive a with upcoming := arrivals :: upcoming } = l.outstanding
  ∨ outstanding { l.receive a with upcoming := arrivals :: upcoming } = []
    ∧ ∃ code, l.ending? = some (.reset code)
  := by
  obtain ⟨⟨id, token, arrived, ended⟩, room, _⟩ := l
  cases hupcoming
  obtain (fragment | (- | code) | code) | bytes := a <;> cases ended
    <;> simp [outstanding, Line.receive, WireStream.receive, Arrival.body, Arrival.signal?,
      Arrival.data, ending?, List.findSome?_cons]

/-- Whether what is left to read are some bytes and then a signal; if that is a reset, of the
bytes no more than those. -/
structure Delivers (l : Line) (w : Bytes) (signal : Signal) : Prop where
  ending : l.ending? = some signal
  finished : signal = .finish → l.outstanding = w
  bounded : l.outstanding.length ≤ w.length
  isReading : l.stream.IsReading

/-- More reads than reach the end change nothing. -/
theorem collectWithin_mono
    {now chunk n m : Nat} {data : Bytes} {l : Line} {r : Except IoError Bytes × Line}
    (h : l.collectWithin now chunk n data = some r) (hle : n ≤ m) :
  l.collectWithin now chunk m data = some r
  := by
  induction n generalizing m data l with
  | zero => cases h
  | succ n ih =>
    obtain ⟨m, rfl⟩ : ∃ k, m = k + 1 := ⟨m - 1, by omega⟩
    rw [collectWithin] at h ⊢
    cases hread : l.await? now (.read chunk) with
    | none =>
      rw [hread] at h
      cases h
    | some read =>
      rw [hread] at h
      obtain ⟨e | - | ⟨b, piece⟩, l'⟩ := read
      · exact h
      · exact h
      · exact ih h (Nat.le_of_succ_le_succ hle)

namespace Delivers

variable {l : Line} {w : Bytes} {signal : Signal} {arrivals : List Arrival}
  {upcoming : List (List Arrival)}

theorem of_outstanding (hending : l.ending? = some signal) (h : l.stream.IsReading) :
  l.Delivers l.outstanding signal
  :=
  ⟨hending, fun _ => rfl, Nat.le_refl _, h⟩

/-- One of the next arrivals reaches the client. -/
theorem receive {a : Arrival} (hupcoming : l.upcoming = (a :: arrivals) :: upcoming)
    (h : l.Delivers w signal) :
  Delivers { l.receive a with upcoming := arrivals :: upcoming } w signal
  := by
  have hending : ending? { l.receive a with upcoming := arrivals :: upcoming } = l.ending? := by
    rw [ending?, ending?, receive_eq, hupcoming, List.flatten_cons, List.flatten_cons,
      List.cons_append, Arrival.findSome?_cons_eq_or, Option.or_assoc]
  have hreading : (l.receive a).stream.IsReading := by
    rw [receive_eq]
    exact ⟨h.isReading.unstopped, h.isReading.untimed⟩
  obtain houtstanding | ⟨hnothing, code, hreset⟩ := outstanding_receive hupcoming
  · refine ⟨hending.trans h.ending, ?_, ?_, hreading⟩
    · rw [houtstanding]
      exact h.finished
    · rw [houtstanding]
      exact h.bounded
  · refine ⟨hending.trans h.ending, ?_, ?_, hreading⟩
    · rintro rfl
      rw [h.ending] at hreset
      cases hreset
    · rw [hnothing]
      exact Nat.zero_le _

theorem after (hupcoming : l.upcoming = arrivals :: upcoming) (h : l.Delivers w signal) :
  (l.after arrivals upcoming).Delivers w signal
  := by
  induction arrivals generalizing l with
  | nil =>
    refine ⟨(ending?_after hupcoming).trans h.ending, ?_, ?_, h.isReading⟩
    · intro hfinish
      rw [← h.finished hfinish, outstanding, outstanding, hupcoming]
      rfl
    · apply Nat.le_trans _ h.bounded
      rw [outstanding, outstanding, hupcoming]
      exact Nat.le_refl _
  | cons a arrivals ih =>
    have hfirst : l.after (a :: arrivals) upcoming
        = after { l.receive a with upcoming := arrivals :: upcoming } arrivals upcoming := by
      cases a <;> rfl
    rw [hfirst]
    exact ih rfl (h.receive hupcoming)

/-- A read finds the end, or gives some of what is left, or waits for more. -/
theorem read? (h : l.Delivers w signal) (now : Nat) {n : Nat} (hn : 0 < n) :
  (∃ code, signal = .reset code
    ∧ l.stream.read? now n = some (.error (.stream (.reset code)), l.stream))
  ∨ (signal = .finish ∧ w = [] ∧ l.stream.read? now n = some (.ok [], l.stream))
  ∨ (∃ b piece arrived w', l.stream.read? now n = some (.ok (b :: piece), { l.stream with arrived })
    ∧ Delivers { l with stream := { l.stream with arrived } } w' signal
    ∧ (signal = .finish → w = b :: piece ++ w') ∧ w'.length < w.length)
  ∨ l.stream.read? now n = none ∧ l.upcoming ≠ []
  := by
  have hending := h.ending
  rw [ending?] at hending
  by_cases hreset : ∃ code, l.stream.ended = some (.reset code)
  · obtain ⟨code, hended⟩ := hreset
    rw [hended] at hending
    cases hending
    exact .inl ⟨code, rfl, WireStream.read?_of_reset h.isReading hended now hn⟩
  · right
    have hended : ∀ code, l.stream.ended ≠ some (.reset code) := fun code hcode =>
      hreset ⟨code, hcode⟩
    by_cases harrived : l.stream.arrived.flatten = []
    · cases hended : l.stream.ended with
      | some last =>
        rw [hended] at hending
        cases hending
        cases signal with
        | reset code => exact absurd hended (hreset ⟨code, ·⟩)
        | finish =>
          refine .inl ⟨rfl, ?_, ?_⟩
          · rw [← h.finished rfl, outstanding, hended, harrived]
            rfl
          · rw [h.isReading.read? now hn, hended, WireStream.dropWhile_isEmpty_of_flatten harrived]
      | none =>
        right
        right
        refine ⟨WireStream.read?_of_empty h.isReading hended harrived now hn, ?_⟩
        intro hupcoming
        rw [hended, hupcoming] at hending
        cases hending
    · right
      left
      obtain ⟨b, piece, arrived, hread, hflatten⟩ :=
        WireStream.read?_of_arrived h.isReading hended harrived now hn
      have houtstanding : l.outstanding
          = b :: piece ++ outstanding { l with stream := { l.stream with arrived } } := by
        rw [outstanding, outstanding, hflatten, List.append_assoc]
      have hdelivers := of_outstanding (l := { l with stream := { l.stream with arrived } })
        h.ending ⟨h.isReading.unstopped, h.isReading.untimed⟩
      refine ⟨b, piece, arrived, _, hread, hdelivers, ?_, ?_⟩
      · intro hfinish
        rw [← h.finished hfinish, houtstanding]
      · have hbounded := h.bounded
        rw [houtstanding, List.length_append, List.length_cons] at hbounded
        omega

theorem await_read (h : l.Delivers w signal) (now : Nat) {n : Nat} (hn : 0 < n) :
  ∃ (answer : Except IoError Bytes) (l' : Line), l.await? now (.read n) = some (answer, l')
    ∧ ((∃ code, signal = .reset code ∧ answer = .error (.stream (.reset code)))
      ∨ (signal = .finish ∧ w = [] ∧ answer = .ok [])
      ∨ ∃ b piece w', answer = .ok (b :: piece) ∧ l'.Delivers w' signal
        ∧ (signal = .finish → w = b :: piece ++ w') ∧ w'.length < w.length)
  := by
  refine exists_await (.read n) (Delivers · w signal) ?_ ?_ h
  · intro l arrivals upcoming hupcoming h
    exact h.after hupcoming
  · intro l h
    have hanswer : l.answer? now (.read n)
        = (l.stream.read? now n).map fun r => (r.1, { l with stream := r.2 }) := rfl
    rw [hanswer]
    obtain ⟨code, hreset, hread⟩ | ⟨hfinish, hw, hread⟩ | ⟨b, piece, arrived, w', hread, hrest⟩
        | ⟨hread, hmore⟩ := h.read? now hn
    · rw [hread]
      exact .inl ⟨_, _, rfl, .inl ⟨code, hreset, rfl⟩⟩
    · rw [hread]
      exact .inl ⟨_, _, rfl, .inr (.inl ⟨hfinish, hw, rfl⟩)⟩
    · rw [hread]
      exact .inl ⟨_, _, rfl, .inr (.inr ⟨b, piece, w', rfl, hrest⟩)⟩
    · rw [hread]
      exact .inr ⟨rfl, hmore⟩

/-- Reading finds what the peer has sent, whatever the pieces it came in and however much is read
at once; one read more than there are bytes gets to the end. -/
theorem collectWithin
    {chunk n : Nat} (h : l.Delivers w signal) (hchunk : 0 < chunk) (hn : w.length < n) (now : Nat)
    (data : Bytes) :
  ∃ l', Line.collectWithin now chunk n data l = some (WireStream.collected (data ++ w, signal), l')
  := by
  induction n generalizing l w data with
  | zero => omega
  | succ n ih =>
    obtain ⟨answer, l', hanswer, hread⟩ := h.await_read now hchunk
    rw [Line.collectWithin, hanswer]
    obtain ⟨code, rfl, rfl⟩ | ⟨rfl, rfl, rfl⟩ | ⟨b, piece, w', rfl, h', hw, hlength⟩ := hread
    · exact ⟨l', rfl⟩
    · rw [List.append_nil]
      exact ⟨l', rfl⟩
    · obtain ⟨l'', hrest⟩ := ih h' (by omega) (data ++ b :: piece)
      use l''
      apply hrest.trans
      cases signal with
      | reset code => rfl
      | finish => rw [hw rfl, List.append_assoc]

/-- So does reading to the end, which takes no more reads than that. -/
theorem collect? {chunk : Nat} (h : l.Delivers w signal) (hchunk : 0 < chunk) (now : Nat) :
  ∃ l', l.collect? now chunk = some (WireStream.collected (w, signal), l')
    ∧ l.collectWithin now chunk (w.length + 1) [] = some (WireStream.collected (w, signal), l')
  := by
  obtain ⟨l', hcollect⟩ := (of_outstanding h.ending h.isReading).collectWithin hchunk
    (Nat.lt_succ_self _) now []
  have hcollected : WireStream.collected ([] ++ l.outstanding, signal)
      = WireStream.collected (w, signal) := by
    cases signal with
    | reset code => rfl
    | finish => rw [h.finished rfl, List.nil_append]
  rw [hcollected] at hcollect
  refine ⟨l', ?_, ?_⟩
  · exact collectWithin_mono hcollect (Nat.succ_le_succ l.length_outstanding_le_unread)
  · exact collectWithin_mono hcollect (Nat.succ_le_succ h.bounded)

end Delivers

end Line

end StreamCall.Client
