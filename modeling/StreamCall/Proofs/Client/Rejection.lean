import StreamCall.Proofs.Client.Arrival
import StreamCall.Proofs.Client.Transparency

/-!
# Calls that are rejected

A peer that rejects a call resets what it sends, and may ask the client to stop while the
request is still on its way.  In whatever order these reach the client, with whatever data in
between, the call fails with the code of the reset (`send_rejected`).  Only where the peer
neither asks the client to stop nor takes all of the request, the call waits for ever
(`send_starved`).
-/

namespace StreamCall.Client

variable {ν α : Type}

namespace Line

/-! ### Streams that will be reset -/

/-- Whether a call will find its stream reset with a code: so the peer ends what it sends, and
the client goes on reading and sets no deadline. -/
structure Doomed (l : Line) (code : Nat) : Prop where
  ending : l.ending? = some (.reset code)
  isReading : l.stream.IsReading
  untimed : l.stream.writeDeadline = none

theorem Doomed.after
    {l : Line} {code : Nat} {arrivals : List Arrival} {upcoming : List (List Arrival)}
    (hupcoming : l.upcoming = arrivals :: upcoming) (h : l.Doomed code) :
  (l.after arrivals upcoming).Doomed code
  := by
  constructor
  · rw [ending?_after hupcoming, h.ending]
  · rw [Line.after, foldl_receive_eq]
    exact ⟨h.isReading.unstopped, h.isReading.untimed⟩
  · rw [Line.after, foldl_receive_eq]
    exact h.untimed

/-- Whether writing so many bytes comes to an end: the peer asks to stop or makes room for
them. -/
def Heeds (l : Line) (n : Nat) : Prop :=
  l.stopping?.isSome = true ∨ n ≤ l.capacity

instance (l : Line) (n : Nat) : Decidable (l.Heeds n) :=
  inferInstanceAs (Decidable (_ ∨ _))

/-! ### Writing -/

/-- Whether so many bytes can still be written to a stream that will be reset. -/
structure Writes (l : Line) (code n : Nat) : Prop extends l.Doomed code where
  isOpen : l.stream.side = .open
  heeds : l.Heeds n

theorem Writes.after
    {l : Line} {code n : Nat} {arrivals : List Arrival} {upcoming : List (List Arrival)}
    (hupcoming : l.upcoming = arrivals :: upcoming) (h : l.Writes code n) :
  (l.after arrivals upcoming).Writes code n
  := by
  constructor
  · exact h.toDoomed.after hupcoming
  · rw [Line.after, foldl_receive_eq]
    exact h.isOpen
  · rw [Heeds, stopping?_after hupcoming, capacity_after hupcoming]
    exact h.heeds

/-- Where everything that is written is sent, a write takes as much as there is room for. -/
theorem write?_of_isOpen
    {l : Line} (h : l.stream.IsOpen) (now : Nat) {data : Bytes} (hdata : data ≠ []) :
  l.write? now data
    = if l.room = 0 then none
      else some (.ok (data.take l.room).length, { l with
        stream := { l.stream with sent := l.stream.sent ++ data.take l.room }
        room := l.room - (data.take l.room).length })
  := by
  have hempty : data.isEmpty = false := by simpa using hdata
  have htaken : (data.take l.room).isEmpty = true ↔ l.room = 0 := by
    simp [hdata]
  rw [write?, h.write?]
  dsimp only [Option.getD_some]
  rw [hempty, Bool.not_false, Bool.and_true]
  by_cases hroom : l.room = 0
  · rw [if_pos hroom, if_pos (htaken.mpr hroom), Option.map_none]
  · rw [if_neg hroom, if_neg (mt htaken.mp hroom)]
    rfl

/-- A write fails, or takes at least one byte, or waits for more room. -/
theorem Writes.write?
    {l : Line} {code : Nat} {data : Bytes} (h : l.Writes code data.length) (hdata : data ≠ [])
    (now : Nat) :
  (∃ answer l', l.write? now data = some (answer, l') ∧ l'.Doomed code
    ∧ ∀ taken, answer = .ok taken → 0 < taken ∧ l'.Writes code (data.length - taken))
  ∨ l.write? now data = none ∧ l.upcoming ≠ []
  := by
  cases hasked : l.stream.askedToStop with
  | some stop =>
    refine .inl ⟨.error (.stream (.stopped stop)), l, ?_, h.toDoomed, ?_⟩
    · rw [Line.write?, WireStream.write?, h.untimed, h.isOpen, hasked]
      rfl
    · intro taken htaken
      cases htaken
  | none =>
    have hlength := List.length_pos_of_ne_nil hdata
    rw [write?_of_isOpen ⟨h.isOpen, hasked, h.untimed⟩ now hdata]
    by_cases hroom : l.room = 0
    · refine .inr ⟨if_pos hroom, ?_⟩
      intro hupcoming
      have hheeds := h.heeds
      rw [Heeds, stopping?, capacity, hasked, hupcoming, hroom] at hheeds
      simp [Arrival.addedBy] at hheeds
      exact hdata hheeds
    · rw [if_neg hroom]
      have hreading := h.isReading
      refine .inl ⟨_, _, rfl, ⟨h.ending, ⟨hreading.1, hreading.2⟩, h.untimed⟩, ?_⟩
      intro taken htaken
      cases htaken
      have htaken : 0 < (data.take l.room).length := by
        rw [List.length_take]
        omega
      refine ⟨htaken, ⟨h.ending, ⟨hreading.1, hreading.2⟩, h.untimed⟩, h.isOpen, ?_⟩
      obtain hstopping | hcapacity := h.heeds
      · exact .inl hstopping
      · right
        rw [capacity] at hcapacity ⊢
        dsimp only
        rw [List.length_take]
        omega

theorem Writes.await_write
    {l : Line} {code : Nat} {data : Bytes} (h : l.Writes code data.length) (hdata : data ≠ [])
    (now : Nat) :
  ∃ (answer : Except IoError Nat) (l' : Line), l.await? now (.write data) = some (answer, l')
    ∧ l'.Doomed code
    ∧ ∀ taken, answer = .ok taken → 0 < taken ∧ l'.Writes code (data.length - taken)
  := by
  refine exists_await (.write data) (Writes · code data.length) ?_ ?_ h
  · intro l arrivals upcoming hupcoming h
    exact h.after hupcoming
  · intro l h
    exact h.write? hdata now

/-- Writing comes to an end if each write fails or takes at least one byte. The relation `P` is
between a line and the number of bytes that are left to write. -/
theorem exists_run_writeRest
    {now : Nat} {P : Line → Nat → Prop} {Q : Except IoError Unit → Line → Prop}
    (hdone : ∀ l, P l 0 → Q (.ok ()) l)
    (hwrite : ∀ l data, P l data.length → data ≠ [] →
      ∃ (answer : Except IoError Nat) (l' : Line), l.await? now (.write data) = some (answer, l')
        ∧ (∀ e, answer = .error e → Q (.error e) l')
        ∧ ∀ taken, answer = .ok taken → 0 < taken ∧ P l' (data.length - taken))
    {l : Line} {n : Nat} {data : Bytes} (h : P l data.length) (hn : data.length ≤ n) :
  ∃ result l', (Stream.writeRest n data).run (await? now) l = (.done result, l') ∧ Q result l'
  := by
  induction n generalizing l data with
  | zero =>
    obtain rfl := List.length_eq_zero_iff.mp (Nat.le_zero.mp hn)
    exact ⟨.ok (), l, rfl, hdone l h⟩
  | succ n ih =>
    cases data with
    | nil => exact ⟨.ok (), l, rfl, hdone l h⟩
    | cons b rest =>
      obtain ⟨answer, l₁, hanswer, herror, htaken⟩ := hwrite l _ h (List.cons_ne_nil b rest)
      rw [Stream.writeRest]
      cases answer with
      | error e => exact ⟨.error e, l₁, run_await hanswer _, herror e rfl⟩
      | ok taken =>
        obtain ⟨hpos, hleft⟩ := htaken taken rfl
        rw [← List.length_drop] at hleft
        obtain ⟨result, l', hrest, hresult⟩ := ih hleft (by rw [List.length_drop]; omega)
        refine ⟨result, l', (run_await hanswer _).trans ?_, hresult⟩
        dsimp only
        rw [if_neg (Nat.ne_of_gt hpos), hrest]

/-- Writing comes to an end. -/
theorem Writes.run_writeRest
    {l : Line} {code n : Nat} {data : Bytes} (h : l.Writes code data.length)
    (hn : data.length ≤ n) (now : Nat) :
  ∃ result l', (Stream.writeRest n data).run (await? now) l = (.done result, l')
    ∧ l'.Doomed code
  := by
  refine exists_run_writeRest (P := (Writes · code)) (Q := fun _ l' => l'.Doomed code)
    (fun l h => h.toDoomed) (fun l data h hdata => ?_) h hn
  obtain ⟨answer, l', hanswer, hdoomed, htaken⟩ := h.await_write hdata now
  exact ⟨answer, l', hanswer, fun _ _ => hdoomed, htaken⟩

theorem Doomed.await_shutdown {l : Line} {code : Nat} (h : l.Doomed code) (now : Nat) :
  ∃ (answer : Except IoError Unit) (l' : Line), l.await? now .shutdown = some (answer, l')
    ∧ l'.Doomed code
  := by
  refine exists_await .shutdown (Doomed · code) ?_ ?_ h
  · intro l arrivals upcoming hupcoming h
    exact h.after hupcoming
  · intro l h
    obtain ⟨answer, stream, hshutdown⟩ := l.stream.exists_shutdown?_acknowledged now
    obtain ⟨side, signals, rfl⟩ := WireStream.shutdown?_eq hshutdown
    have hanswer : l.answer? now .shutdown
        = some (answer, { l with stream := { l.stream with side, signals } }) := by
      show (l.stream.shutdown? now .acknowledged).map _ = _
      rw [hshutdown]
      rfl
    exact .inl ⟨_, _, hanswer, h.ending, ⟨h.isReading.1, h.isReading.2⟩, h.untimed⟩

/-- Writing a request and closing comes to an end, be it with an error. -/
theorem Writes.run_writeEnvelope
    {l : Line} {code : Nat} {envelope : Envelope}
    (h : l.Writes code (Envelope.encode envelope).length) (now : Nat) :
  ∃ result l', (Stream.writeEnvelope envelope).run (await? now) l = (.done result, l')
    ∧ l'.Doomed code
  := by
  obtain ⟨written, l₁, hwritten, hdoomed⟩ := h.run_writeRest (Nat.le_refl _) now
  rw [Stream.writeEnvelope, Stream.writeAll, Program.run_bind, hwritten]
  cases written with
  | error e => exact ⟨.error (.write e), l₁, rfl, hdoomed⟩
  | ok u =>
    obtain ⟨answer, l₂, hanswer, hdoomed'⟩ := hdoomed.await_shutdown now
    cases answer with
    | error e => exact ⟨.error (.write e), l₂, run_await hanswer _, hdoomed'⟩
    | ok u => exact ⟨.ok (), l₂, run_await hanswer _, hdoomed'⟩

/-! ### Writing without end -/

/-- Whether so many bytes cannot all be written: the peer neither asks to stop nor makes room for
them. -/
structure Starves (l : Line) (n : Nat) : Prop where
  isOpen : l.stream.side = .open
  untimed : l.stream.writeDeadline = none
  unheeded : ¬ l.Heeds n

theorem Starves.after
    {l : Line} {n : Nat} {arrivals : List Arrival} {upcoming : List (List Arrival)}
    (hupcoming : l.upcoming = arrivals :: upcoming) (h : l.Starves n) :
  (l.after arrivals upcoming).Starves n
  := by
  constructor
  · rw [Line.after, foldl_receive_eq]
    exact h.isOpen
  · rw [Line.after, foldl_receive_eq]
    exact h.untimed
  · rw [Heeds, stopping?_after hupcoming, capacity_after hupcoming]
    exact h.unheeded

theorem Starves.ne_nil {l : Line} {data : Bytes} (h : l.Starves data.length) :
  data ≠ []
  := by
  rintro rfl
  exact h.unheeded (.inr (Nat.zero_le _))

/-- A write takes some bytes, but never the last ones, or waits. -/
theorem Starves.write? {l : Line} {data : Bytes} (h : l.Starves data.length) (now : Nat) :
  (∃ answer l', l.write? now data = some (answer, l')
    ∧ ∃ taken, answer = .ok taken ∧ 0 < taken ∧ l'.Starves (data.length - taken))
  ∨ l.write? now data = none
  := by
  have hstopping : l.stopping? = none := by
    rw [← Option.not_isSome_iff_eq_none]
    exact h.unheeded ∘ .inl
  have hasked : l.stream.askedToStop = none := by
    rw [stopping?, Option.or_eq_none_iff] at hstopping
    exact hstopping.1
  rw [write?_of_isOpen ⟨h.isOpen, hasked, h.untimed⟩ now h.ne_nil]
  by_cases hroom : l.room = 0
  · exact .inr (if_pos hroom)
  · rw [if_neg hroom]
    have hlength := List.length_pos_of_ne_nil h.ne_nil
    refine .inl ⟨_, _, rfl, (data.take l.room).length, rfl, ?_, h.isOpen, h.untimed, ?_⟩
    · rw [List.length_take]
      omega
    · rintro (hstop | hcapacity)
      · exact h.unheeded (.inl hstop)
      · apply h.unheeded
        right
        rw [capacity] at hcapacity ⊢
        dsimp only at hcapacity
        rw [List.length_take] at hcapacity
        omega

/-- Writing waits for ever. -/
theorem Starves.run_writeRest
    {l : Line} {n : Nat} {data : Bytes} (h : l.Starves data.length) (hn : data.length ≤ n)
    (now : Nat) :
  ∃ l', (Stream.writeRest n data).run (await? now) l = (.waiting, l')
  := by
  induction n generalizing l data with
  | zero => exact absurd (List.length_eq_zero_iff.mp (Nat.le_zero.mp hn)) h.ne_nil
  | succ n ih =>
    cases data with
    | nil => exact absurd rfl h.ne_nil
    | cons b rest =>
      have hcases := await_cases (.write (b :: rest)) (Starves · (b :: rest).length)
        (fun l arrivals upcoming hupcoming h => h.after hupcoming) (fun l h => h.write? now) h
      rw [Stream.writeRest]
      obtain ⟨_, l₁, hanswer, taken, rfl, hpos, hstarves⟩ | ⟨hwaiting, -⟩ := hcases
      · rw [← List.length_drop] at hstarves
        obtain ⟨l', hrest⟩ := ih hstarves (by rw [List.length_drop]; omega)
        refine ⟨l', (run_await hanswer _).trans ?_⟩
        dsimp only
        rw [if_neg (Nat.ne_of_gt hpos), hrest]
      · exact ⟨l, Program.run_step_waiting (S := Streaming) hwaiting _⟩

theorem Starves.run_writeEnvelope
    {l : Line} {envelope : Envelope} (h : l.Starves (Envelope.encode envelope).length)
    (now : Nat) :
  ∃ l', (Stream.writeEnvelope envelope).run (await? now) l = (.waiting, l')
  := by
  obtain ⟨l', hwaiting⟩ := h.run_writeRest (Nat.le_refl _) now
  use l'
  rw [Stream.writeEnvelope, Stream.writeAll, Program.run_bind, hwaiting]

/-! ### Reading -/

/-- However much is read before, the reset is what reading ends with. -/
theorem Doomed.collect?
    {l : Line} {code chunk : Nat} (h : l.Doomed code) (hchunk : 0 < chunk) (now : Nat) :
  ∃ l', l.collect? now chunk = some (.error (.stream (.reset code)), l')
  := by
  obtain ⟨l', hcollect, -⟩ := (Delivers.of_outstanding h.ending h.isReading).collect? hchunk now
  exact ⟨l', hcollect⟩

/-! ### The round trip -/

section Racing

variable {caller : Token} {limits : Limits} {now : Nat} {w w' : World ν} {l l' : Line}

theorem race_step
    {op : (Calling ν).Op} {answer : (Calling ν).Answer op}
    (h : (setting caller).answer now (w, l) op = (.now answer, w', l'))
    (next : (Calling ν).Answer op → Program (Calling ν) (Except ClientError Response)) :
  race (setting caller) limits now (w, l) (.step op next)
    = race (setting caller) limits now (w', l') (next answer)
  := by
  rw [race, h]

/-- A program on the surroundings alone leaves the line as it is. -/
theorem race_onSurroundings
    {p : Program (Ambient ν) α} {a : α} (h : p.run World.answer w = (.done a, w'))
    (next : α → Program (Calling ν) (Except ClientError Response)) :
  race (setting caller) limits now (w, l) ((onSurroundings p).bind next)
    = race (setting caller) limits now (w', l) (next a)
  := by
  induction p generalizing w with
  | done a =>
    cases h
    rfl
  | panic q => cases h
  | step op rest ih =>
    cases hanswer : w.answer op with
    | none =>
      rw [Program.run_step_waiting hanswer] at h
      cases h
    | some r =>
      rw [Program.run_step hanswer] at h
      have hstep : (setting caller).answer now (w, l) (.inl op) = (.now r.1, r.2, l) := by
        dsimp only [setting]
        rw [hanswer]
      exact (race_step hstep _).trans (ih r.1 h)

theorem race_ask
    {op : CallOp} {answer : op.Answer} (h : l.answer now op = (.now answer, l'))
    (next : op.Answer → Program (Calling ν) (Except ClientError Response)) :
  race (setting caller) limits now (w, l) ((ask op).bind next)
    = race (setting caller) limits now (w, l') (next answer)
  := by
  have hstep : (setting caller).answer now (w, l) (.inr op) = (.now answer, w, l') := by
    dsimp only [setting]
    rw [h]
    rfl
  exact race_step hstep _

/-- A program on the stream runs as far as its operations are answered. -/
theorem race_onStream
    {stream : Nat} {p : Stream.Use α} {a : α} (h : p.run (await? now) l = (.done a, l'))
    (next : α → Program (Calling ν) (Except ClientError Response)) :
  race (setting caller) limits now (w, l) ((onStream stream p).bind next)
    = race (setting caller) limits now (w, l') (next a)
  := by
  induction p generalizing l with
  | done a =>
    cases h
    rfl
  | panic q => cases h
  | step op rest ih =>
    cases hanswer : l.await? now op with
    | none =>
      rw [Program.run_step_waiting hanswer] at h
      cases h
    | some r =>
      rw [Program.run_step hanswer] at h
      have hstep : l.answer now (.onStream stream op) = (.now r.1, r.2) := by
        rw [Line.answer, hanswer]
        rfl
      exact (race_ask hstep _).trans (ih r.1 h)

/-- However the request fares, the reset is what is reported. -/
theorem race_exchange
    {code chunk stream : Nat} {request : Request}
    (h : l.Writes code (Envelope.encode request.envelope).length) (hchunk : 0 < chunk) :
  ∃ l', race (setting caller) limits now (w, l) (exchange chunk stream request)
    = ⟨.done (.error (.io (.stream (.reset code)))), now, (w, l')⟩
  := by
  obtain ⟨written, l₁, hwritten, hdoomed⟩ := h.run_writeEnvelope now
  obtain ⟨l₂, hread⟩ := hdoomed.collect? hchunk now
  have hcollect : l₁.answer now (.collect stream chunk)
      = (.now (.error (.stream (.reset code))), l₂) := by
    rw [Line.answer, hread]
    rfl
  use l₂
  rw [exchange]
  apply (race_onStream hwritten _).trans
  apply (race_ask hcollect _).trans
  cases written with
  | error e => rfl
  | ok u => rfl

/-- What waits for ever is not given up by a caller that nobody cancels. -/
theorem race_step_never
    {op : (Calling ν).Op} (h : (setting caller).answer now (w, l) op = (.never, w', l'))
    (hcaller : w'.tokens.isCancelled caller = false)
    (next : (Calling ν).Answer op → Program (Calling ν) (Except ClientError Response)) :
  race (setting caller) ⟨none, none⟩ now (w, l) (.step op next) = ⟨.waiting, now, (w', l')⟩
  := by
  have hcancelled : (setting caller).isCancelled (w', l') = false := hcaller
  rw [race, h]
  dsimp only
  rw [hcancelled]
  rfl

theorem race_onStream_waiting
    {stream : Nat} {p : Stream.Use α} (h : p.run (await? now) l = (.waiting, l'))
    (hcaller : w.tokens.isCancelled caller = false)
    (next : α → Program (Calling ν) (Except ClientError Response)) :
  race (setting caller) ⟨none, none⟩ now (w, l) ((onStream stream p).bind next)
    = ⟨.waiting, now, (w, l')⟩
  := by
  induction p generalizing l with
  | done a => cases h
  | panic q => cases h
  | step op rest ih =>
    cases hanswer : l.await? now op with
    | none =>
      rw [Program.run_step_waiting hanswer] at h
      have hstep : (setting caller).answer now (w, l) (.inr (.onStream stream op))
          = (.never, w, l) := by
        dsimp only [setting]
        rw [Line.answer, hanswer]
        rfl
      cases h
      exact race_step_never hstep hcaller _
    | some r =>
      rw [Program.run_step hanswer] at h
      have hstep : l.answer now (.onStream stream op) = (.now r.1, r.2) := by
        rw [Line.answer, hanswer]
        rfl
      exact (race_ask hstep _).trans (ih r.1 h)

/-- The round trip over the connection is an exchange on the stream. -/
theorem race_physical (chunk : Nat) (ctx : Context) (request : Request) :
  race (setting caller) limits now (w, l) (physical chunk ctx request)
    = race (setting caller) limits now (w, l) (exchange chunk l.stream.id request)
  := by
  have hlookup : l.answer now (.lookup request.address) = (.now (some 0), l) := rfl
  have hopen : l.answer now (.openStream 0) = (.now (.ok l.stream.id), l) := rfl
  exact (race_ask hlookup _).trans (race_ask hopen _)

/-- The round trip of a client sends the stamped request on the stream. -/
theorem race_roundTrip
    {client : Plan ν} {k : Nat} (hclient : client.middlewares = List.replicate k injectRequestId)
    (ctx : Context) (request : Request) :
  ∃ w', w'.tokens = w.tokens
    ∧ race (setting caller) limits now (w, l) (client.roundTrip ctx request)
      = race (setting caller) limits now (w', l) (exchange client.settings.readBuffer l.stream.id
        (stamped k ctx (.ofRandom (w.random 16).1) request))
  := by
  rw [Plan.roundTrip, hclient, chain_injectRequestId, stamped]
  by_cases hid : k = 0 ∨ request.headers.contains RequestId.header = true
  · rw [if_pos hid, if_pos hid]
    exact ⟨w, rfl, race_physical _ ctx request⟩
  · obtain ⟨w', hid', -, htokens⟩ := run_idToInject ctx w
    rw [if_neg hid, if_neg hid, race_onSurroundings hid']
    exact ⟨w', htokens, race_physical _ ctx _⟩

end Racing

/-- A call whose stream is new, and on which the first signal that arrives is a reset. -/
structure Rejects (l : Line) (code : Nat) : Prop where
  new : l.stream = .fresh l.stream.id l.stream.token
  signal : l.upcoming.flatten.findSome? Arrival.signal? = some (.reset code)

theorem Rejects.writes {l : Line} {code n : Nat} (h : l.Rejects code) (hheeds : l.Heeds n) :
  l.Writes code n
  := by
  constructor
  · constructor
    · rw [ending?, h.new]
      exact h.signal
    · rw [h.new]
      exact ⟨rfl, rfl⟩
    · rw [h.new]
      rfl
  · rw [h.new]
    rfl
  · exact hheeds

/-- Whenever the peer's wish to stop, its data and its reset arrive, and however much of the
request is taken before, a call whose stream the peer resets fails with the code of the
reset. -/
theorem send_rejected
    {client : Plan ν} {k : Nat} (hclient : client.middlewares = List.replicate k injectRequestId)
    {l : Line} {code : Nat} (h : l.Rejects code) {caller : Token} {w : World ν}
    (hcaller : w.tokens.isCancelled caller = false) (ctx : Context) (child : Token) (now : Nat)
    {request : Request} (htimeless : timeLimit request = none)
    (hheeds : l.Heeds (Envelope.encode
      (stamped k ctx (.ofRandom (w.random 16).1) request).envelope).length) :
  ∃ e, (send (setting caller) none now (w, l) client.roundTrip ctx child request).outcome
      = .done (.error e)
    ∧ e.streamCode? = some code
  := by
  obtain ⟨w', -, htrip⟩ := race_roundTrip hclient (ctx.withToken child) request
  obtain ⟨l', hexchange⟩ := race_exchange (h.writes hheeds) client.readBuffer_pos
  use .io (.stream (.reset code))
  rw [send_eq_race (s := (w, l)) hcaller htimeless, htrip]
  constructor
  · exact congrArg Finish.outcome hexchange
  · rfl

/-- A call waits for ever whose peer neither asks it to stop nor takes all of the request, be the
stream reset or not. -/
theorem send_starved
    {client : Plan ν} {k : Nat} (hclient : client.middlewares = List.replicate k injectRequestId)
    {l : Line} (hnew : l.stream = .fresh l.stream.id l.stream.token) {caller : Token}
    {w : World ν} (hcaller : w.tokens.isCancelled caller = false) (ctx : Context) (child : Token)
    (now : Nat) {request : Request} (htimeless : timeLimit request = none)
    (hunheeded : ¬ l.Heeds (Envelope.encode
      (stamped k ctx (.ofRandom (w.random 16).1) request).envelope).length) :
  (send (setting caller) none now (w, l) client.roundTrip ctx child request).outcome = .waiting
  := by
  have hstarves : l.Starves (Envelope.encode
      (stamped k ctx (.ofRandom (w.random 16).1) request).envelope).length := by
    constructor
    · rw [hnew]
      rfl
    · rw [hnew]
      rfl
    · exact hunheeded
  obtain ⟨w', htokens, htrip⟩ := race_roundTrip hclient (ctx.withToken child) request
  obtain ⟨l', hwaiting⟩ := hstarves.run_writeEnvelope now
  rw [send_eq_race (s := (w, l)) hcaller htimeless, htrip]
  rw [← htokens] at hcaller
  exact congrArg Finish.outcome (race_onStream_waiting hwaiting hcaller _)

/-- A peer that takes ten bytes, asks to stop, still sends two bytes, and then resets. -/
def refusing : Line :=
  { stream := .fresh 0 ⟨[0]⟩
    room := 10
    upcoming := [[], [.event (.stop 7)], [.event (.send [0x6e, 0x6f])],
      [.event (.signal (.reset 413))]] }

theorem refusing_rejects :
  refusing.Rejects 413
  where
  new := rfl
  signal := rfl

/-- A request that is stopped on its way fails with the code of the reset, not with that of the
wish to stop. -/
theorem send_rejected_midway :
  (refusing.Rejects 413
    ∧ stillWorld.tokens.isCancelled callerContext.token = false
    ∧ timeLimit (lettersRequest 3) = none
    ∧ refusing.Heeds (Envelope.encode (stamped 1 callerContext (.ofRandom (stillWorld.random 16).1)
      (lettersRequest 3)).envelope).length)
  ∧ ∃ e, (send (setting callerContext.token) none 0 (stillWorld, refusing) stamping.roundTrip
      callerContext ⟨[2, 1]⟩ (lettersRequest 3)).outcome = .done (.error e)
    ∧ e.streamCode? = some 413
  := by
  have hstamping : (stamping : Plan (Sighting Unit)).middlewares
      = List.replicate 1 injectRequestId := rfl
  have hheeds : ∀ n, refusing.Heeds n := fun n => .inl rfl
  exact ⟨⟨refusing_rejects, stillWorld_isCancelled, rfl, hheeds _⟩,
    send_rejected hstamping refusing_rejects stillWorld_isCancelled callerContext ⟨[2, 1]⟩ 0 rfl
      (hheeds _)⟩

end Line

end StreamCall.Client
