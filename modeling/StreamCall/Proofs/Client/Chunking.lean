import StreamCall.Proofs.Client.Rejection

/-!
# Responses in pieces

What a call makes of a response does not depend on how much of it the client reads at once, nor on
the pieces in which it comes (`physical_independent_of_chunking`).  A client reads at least one byte
at once, whatever has been chosen for it, so a read that gives nothing is the end.
-/

namespace StreamCall.Client

variable {ν : Type}

namespace Line

/-! ### Requests that are taken -/

/-- Whether the peer takes so many more bytes, and sends some bytes and finishes. -/
structure Takes (l : Line) (w : Bytes) (n : Nat) : Prop extends l.Delivers w .finish where
  isOpen : l.stream.IsOpen
  unstopped : l.stopping? = none
  enough : n ≤ l.capacity

namespace Takes

variable {l : Line} {w : Bytes} {n : Nat}

theorem after
    {arrivals : List Arrival} {upcoming : List (List Arrival)}
    (hupcoming : l.upcoming = arrivals :: upcoming) (h : l.Takes w n) :
  (l.after arrivals upcoming).Takes w n
  := by
  have hstopping := (stopping?_after hupcoming).trans h.unstopped
  refine ⟨h.toDelivers.after hupcoming, ⟨?_, ?_, ?_⟩, hstopping, ?_⟩
  · rw [Line.after, foldl_receive_eq]
    exact h.isOpen.isOpen
  · exact (Option.or_eq_none_iff.mp hstopping).1
  · rw [Line.after, foldl_receive_eq]
    exact h.isOpen.untimed
  · rw [capacity_after hupcoming]
    exact h.enough

/-- A write takes at least one byte, or waits for more room. -/
theorem write? {data : Bytes} (h : l.Takes w data.length) (hdata : data ≠ []) (now : Nat) :
  (∃ answer l', l.write? now data = some (answer, l')
    ∧ ∃ taken, answer = .ok taken ∧ 0 < taken ∧ l'.Takes w (data.length - taken))
  ∨ l.write? now data = none ∧ l.upcoming ≠ []
  := by
  have hlength := List.length_pos_of_ne_nil hdata
  have henough := h.enough
  rw [capacity] at henough
  rw [write?_of_isOpen h.isOpen now hdata]
  by_cases hroom : l.room = 0
  · refine .inr ⟨if_pos hroom, ?_⟩
    intro hupcoming
    rw [hupcoming, hroom] at henough
    exact Nat.not_le.mpr hlength henough
  · rw [if_neg hroom]
    refine .inl ⟨_, _, rfl, (data.take l.room).length, rfl, ?_, ?_⟩
    · rw [List.length_take]
      omega
    · refine ⟨⟨h.ending, h.finished, h.bounded, ⟨h.isReading.1, h.isReading.2⟩⟩,
        ⟨h.isOpen.1, h.isOpen.2, h.isOpen.3⟩, h.unstopped, ?_⟩
      rw [capacity]
      dsimp only
      rw [List.length_take]
      omega

theorem await_write {data : Bytes} (h : l.Takes w data.length) (hdata : data ≠ []) (now : Nat) :
  ∃ (answer : Except IoError Nat) (l' : Line), l.await? now (.write data) = some (answer, l')
    ∧ ∃ taken, answer = .ok taken ∧ 0 < taken ∧ l'.Takes w (data.length - taken)
  := by
  refine exists_await (.write data) (Takes · w data.length) ?_ ?_ h
  · intro l arrivals upcoming hupcoming h
    exact h.after hupcoming
  · intro l h
    exact h.write? hdata now

theorem await_shutdown (h : l.Takes w n) (now : Nat) :
  ∃ (answer : Except IoError Unit) (l' : Line), l.await? now .shutdown = some (answer, l')
    ∧ answer = .ok () ∧ l'.Delivers w .finish
  := by
  refine exists_await .shutdown (Takes · w n) ?_ ?_ h
  · intro l arrivals upcoming hupcoming h
    exact h.after hupcoming
  · intro l h
    have hanswer : l.answer? now .shutdown = some (.ok (), { l with
        stream := { l.stream with
          side := .closed
          signals := l.stream.signals ++ [.finish] } }) := by
      show (l.stream.shutdown? now .acknowledged).map _ = _
      rw [h.isOpen.shutdown? now]
      rfl
    exact .inl ⟨_, _, hanswer, rfl, h.ending, h.finished, h.bounded,
      ⟨h.isReading.1, h.isReading.2⟩⟩

/-- The request is written, and the response is left to read. -/
theorem run_writeEnvelope {envelope : Envelope} (h : l.Takes w (Envelope.encode envelope).length)
    (now : Nat) :
  ∃ l', (Stream.writeEnvelope envelope).run (await? now) l = (.done (.ok ()), l')
    ∧ l'.Delivers w .finish
  := by
  have hwrite : ∀ (l : Line) (data : Bytes), l.Takes w data.length → data ≠ [] →
      ∃ (answer : Except IoError Nat) (l' : Line), l.await? now (.write data) = some (answer, l')
        ∧ (∀ e, answer = .error e → Except.error e = .ok () ∧ l'.Takes w 0)
        ∧ ∀ taken, answer = .ok taken → 0 < taken ∧ l'.Takes w (data.length - taken) := by
    intro l data h hdata
    obtain ⟨_, l', hanswer, taken, rfl, hpos, htakes⟩ := h.await_write hdata now
    refine ⟨_, l', hanswer, ?_, ?_⟩
    · rintro e ⟨⟩
    · rintro _ ⟨⟩
      exact ⟨hpos, htakes⟩
  obtain ⟨_, l₁, hwritten, rfl, htakes⟩ := exists_run_writeRest (P := (Takes · w))
    (Q := fun result l' => result = .ok () ∧ l'.Takes w 0) (fun l h => ⟨rfl, h⟩) hwrite h
    (Nat.le_refl _)
  obtain ⟨_, l₂, hanswer, rfl, hdelivers⟩ := htakes.await_shutdown now
  refine ⟨l₂, ?_, hdelivers⟩
  rw [Stream.writeEnvelope, Stream.writeAll, Program.run_bind, hwritten]
  exact run_await hanswer _

end Takes

/-! ### Replies -/

/-- A call on a new stream on which the peer sends some bytes and then a signal, in any pieces.
It takes a request of so many bytes, or when it resets the stream it may ask the client to stop. -/
structure Replies (l : Line) (w : Bytes) (signal : Signal) (n : Nat) : Prop where
  new : l.stream = .fresh l.stream.id l.stream.token
  body : Arrival.body l.upcoming.flatten = w
  ending : l.upcoming.flatten.findSome? Arrival.signal? = some signal
  heeds : l.Heeds n
  unstopped : signal = .finish → l.stopping? = none

section Replies

variable {l : Line} {w : Bytes} {signal : Signal} {n : Nat}

theorem Replies.delivers (h : l.Replies w signal n) :
  l.Delivers w signal
  := by
  have houtstanding : l.outstanding = w := by
    rw [outstanding, h.new, ← h.body]
    rfl
  refine ⟨?_, fun _ => houtstanding, Nat.le_of_eq (congrArg List.length houtstanding), ?_⟩
  · rw [ending?, h.new]
    exact h.ending
  · rw [h.new]
    exact ⟨rfl, rfl⟩

theorem Replies.takes (h : l.Replies w .finish n) :
  l.Takes w n
  := by
  have hunstopped := h.unstopped rfl
  refine ⟨h.delivers, ?_, hunstopped, ?_⟩
  · rw [h.new]
    exact ⟨rfl, rfl, rfl⟩
  · obtain hstopping | hcapacity := h.heeds
    · rw [hunstopped] at hstopping
      cases hstopping
    · exact hcapacity

theorem Replies.rejects {code : Nat} (h : l.Replies w (.reset code) n) :
  l.Rejects code
  :=
  ⟨h.new, h.ending⟩

/-- The round trip ends with what the peer has sent. -/
theorem Replies.race_physical
    {request : Request} (h : l.Replies w signal (Envelope.encode request.envelope).length)
    {chunk : Nat} (hchunk : 0 < chunk) (caller : Token) (limits : Limits) (now : Nat)
    (world : World ν) (ctx : Context) :
  (race (setting caller) limits now (world, l) (physical chunk ctx request)).outcome
    = .done (arrived (WireStream.collected (w, signal)))
  := by
  rw [Line.race_physical]
  cases signal with
  | reset code =>
    obtain ⟨l', hexchange⟩ := race_exchange (h.rejects.writes h.heeds) hchunk
    rw [hexchange]
    rfl
  | finish =>
    obtain ⟨l₁, hwritten, hdelivers⟩ := h.takes.run_writeEnvelope now
    obtain ⟨l₂, hcollect, -⟩ := hdelivers.collect? hchunk now
    have hread : l₁.answer now (.collect l.stream.id chunk)
        = (.now (WireStream.collected (w, .finish)), l₂) := by
      rw [Line.answer, hcollect]
      rfl
    rw [exchange, race_onStream hwritten]
    exact congrArg Finish.outcome (race_ask hread _)

end Replies

/-- The response does not depend on the pieces.  Of two clients, whatever has been chosen for each,
and two calls on which the peer sends the same bytes and the same signal behind them, in whatever
pieces and whenever each of them comes, both make the same of it: they decode the bytes when the
peer has finished, and fail with the code when it has reset the stream.  Wherever these bytes and
this signal are left to read, the client finds them by as many reads as there are bytes and one
more. -/
theorem physical_independent_of_chunking
    {w : Bytes} {signal : Signal} {request : Request} {l l' : Line}
    (h : l.Replies w signal (Envelope.encode request.envelope).length)
    (h' : l'.Replies w signal (Envelope.encode request.envelope).length)
    (choices choices' : List (Choice ν)) (caller caller' : Token) (limits limits' : Limits)
    (now now' : Nat) (world world' : World ν) (ctx ctx' : Context) :
  let chunk := (Plan.ofChoices choices).settings.readBuffer
  let chunk' := (Plan.ofChoices choices').settings.readBuffer
  let finish := race (setting caller) limits now (world, l) (physical chunk ctx request)
  let finish' := race (setting caller') limits' now' (world', l') (physical chunk' ctx' request)
  finish.outcome = finish'.outcome
  ∧ (signal = .finish →
    (∀ envelope, Envelope.decode .response w = .ok envelope →
      finish.outcome = .done (.ok ⟨envelope.body, envelope.headers⟩))
    ∧ ∀ e, Envelope.decode .response w = .error e →
      finish.outcome = .done (.error (.envelope (.decodeResponse e))))
  ∧ (∀ code, signal = .reset code →
    finish.outcome = .done (.error (.io (.stream (.reset code)))))
  ∧ ∀ now (left : Line), left.Delivers w signal →
    ∃ last, left.collect? now chunk = some (WireStream.collected (w, signal), last)
      ∧ left.collectWithin now chunk (w.length + 1) []
        = some (WireStream.collected (w, signal), last)
  := by
  intro chunk chunk' finish finish'
  have hchunk : 0 < chunk := (Plan.ofChoices choices).readBuffer_pos
  have hchunk' : 0 < chunk' := (Plan.ofChoices choices').readBuffer_pos
  have hfinish := h.race_physical hchunk caller limits now world ctx
  have hfinish' := h'.race_physical hchunk' caller' limits' now' world' ctx'
  refine ⟨hfinish.trans hfinish'.symm, ?_, ?_, fun now left hleft => hleft.collect? hchunk now⟩
  · rintro rfl
    constructor
    · intro envelope hdecode
      rw [hfinish, WireStream.collected, arrived, hdecode]
      rfl
    · intro e hdecode
      rw [hfinish, WireStream.collected, arrived, hdecode]
  · rintro code rfl
    exact hfinish

/-- A peer that takes a request of three letters, and what arrives then. -/
def letting (upcoming : List (List Arrival)) : Line :=
  { stream := .fresh 0 ⟨[0]⟩
    room := (Envelope.encode (lettersRequest 3).envelope).length
    upcoming }

/-- Two bytes and the end of the response at once. -/
def whole : Line :=
  letting [[.event (.send [0x7b, 0x7d]), .event (.signal .finish)]]

/-- The same, one by one. -/
def scattered : Line :=
  letting [[], [.event (.send [0x7b])], [.event (.send [])], [.event (.send [0x7d])],
    [.event (.signal .finish)]]

theorem whole_replies :
  whole.Replies [0x7b, 0x7d] .finish (Envelope.encode (lettersRequest 3).envelope).length
  where
  new := rfl
  body := rfl
  ending := rfl
  heeds := .inr (Nat.le_add_right _ _)
  unstopped := fun _ => rfl

theorem scattered_replies :
  scattered.Replies [0x7b, 0x7d] .finish (Envelope.encode (lettersRequest 3).envelope).length
  where
  new := rfl
  body := rfl
  ending := rfl
  heeds := .inr (Nat.le_add_right _ _)
  unstopped := fun _ => rfl

/-- A client for which no size has been chosen makes the same of a response that comes at once as
one that reads a single byte at once makes of it when it comes byte by byte. -/
theorem physical_independent_of_chunking_scattered :
  let number := (Envelope.encode (lettersRequest 3).envelope).length
  let usual := (Plan.ofChoices (ν := Sighting Unit) [.readBuffer 0]).settings.readBuffer
  let single := (Plan.ofChoices (ν := Sighting Unit) [.readBuffer 1]).settings.readBuffer
  (whole.Replies [0x7b, 0x7d] .finish number ∧ scattered.Replies [0x7b, 0x7d] .finish number)
  ∧ (race (setting callerContext.token) ⟨none, none⟩ 0 (stillWorld, whole)
      (physical usual callerContext (lettersRequest 3))).outcome
    = (race (setting callerContext.token) ⟨none, none⟩ 0 (stillWorld, scattered)
      (physical single callerContext (lettersRequest 3))).outcome
  :=
  ⟨⟨whole_replies, scattered_replies⟩,
    (physical_independent_of_chunking whole_replies scattered_replies [.readBuffer 0]
      [.readBuffer 1] callerContext.token callerContext.token ⟨none, none⟩ ⟨none, none⟩ 0 0
      stillWorld stillWorld callerContext callerContext).1⟩

end Line

end StreamCall.Client
