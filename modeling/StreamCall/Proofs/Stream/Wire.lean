import StreamCall.Stream.Wire
import StreamCall.Proofs.Stream.Input

/-!
# Streams whose peer has finished

What a program does to a stream of a connection is `use?`, as long as no operation waits.
Writing an envelope sends its document and finishes (`use?_writeEnvelope`).  Once all of the
input has arrived, reading under a limit finds what it finds on a stream in memory
(`use?_readAllUnder`), and reading in pieces finds all of it (`collect?_of_isWhole`).

Whatever is done to a stream, it keeps its token (`token_of_answer?`).
-/

namespace StreamCall.WireStream

variable {α β : Type}

/-- What a program makes of a stream, if it neither waits nor panics. -/
def use? (now : Nat) (s : WireStream) : Stream.Use α → Option (α × WireStream)
  | .done a => some (a, s)
  | .panic _ => none
  | .step op next => (s.answer? now op).bind fun r => use? now r.2 (next r.1)

theorem use?_step
    {now : Nat} {s s' : WireStream} (op : StreamOp) {answer : op.Answer}
    (h : s.answer? now op = some (answer, s')) (next : op.Answer → Stream.Use α) :
  s.use? now (.step op next) = s'.use? now (next answer)
  := by
  rw [use?, h, Option.bind_some]

theorem use?_bind
    {now : Nat} {s s' : WireStream} {p : Stream.Use α} {a : α}
    (h : s.use? now p = some (a, s')) (f : α → Stream.Use β) :
  s.use? now (p.bind f) = s'.use? now (f a)
  := by
  induction p generalizing s with
  | done a =>
    cases h
    rfl
  | panic q => cases h
  | step op next ih =>
    rw [use?] at h
    rw [Program.step_bind, use?]
    cases hanswer : s.answer? now op with
    | none =>
      rw [hanswer] at h
      cases h
    | some r =>
      rw [hanswer] at h
      exact ih r.1 h

/-! ### The peer -/

/-- Pieces that arrive are put behind the others. -/
theorem foldl_receive_send (fragments : List Bytes) {s : WireStream} (h : s.ended = none) :
  (fragments.map PeerEvent.send).foldl receive s
    = { s with arrived := s.arrived ++ fragments }
  := by
  induction fragments generalizing s with
  | nil => simp
  | cons fragment fragments ih =>
    have hsend : s.receive (.send fragment) = { s with arrived := s.arrived ++ [fragment] } := by
      rw [receive, h]
      rfl
    have hstep := @ih { s with arrived := s.arrived ++ [fragment] } h
    rw [List.map_cons, List.foldl_cons, hsend, hstep]
    simp

/-- What a side sent and then finished arrives as all of the input. -/
theorem foldl_receive_finished {s t : WireStream} (h : s.ended = none) (ht : t.signals = [.finish])
    (cut : Bytes → List Bytes) :
  (t.outgoing cut).foldl receive s
    = { s with arrived := s.arrived ++ cut t.sent, ended := some .finish }
  := by
  rw [outgoing, ht, List.foldl_append, foldl_receive_send _ h, List.map_singleton, List.foldl_cons,
    List.foldl_nil, receive, h]
  rfl

/-- Of what a side reset only the code arrives. -/
theorem foldl_receive_reset
    {s t : WireStream} {code : Nat} (h : s.ended = none) (ht : t.signals = [.reset code])
    (cut : Bytes → List Bytes) :
  (t.outgoing cut).foldl receive s = { s with arrived := [], ended := some (.reset code) }
  := by
  rw [outgoing, ht, List.foldl_append, foldl_receive_send _ h, List.map_singleton, List.foldl_cons,
    List.foldl_nil, receive, h]
  rfl

/-! ### Writing -/

/-- Whether everything that is written is sent. -/
structure IsOpen (s : WireStream) : Prop where
  isOpen : s.side = .open
  unasked : s.askedToStop = none
  untimed : s.writeDeadline = none

/-- A write takes what there is room for. -/
theorem IsOpen.write?
    {s : WireStream} (h : s.IsOpen) (now : Nat) (room : Option Nat) (data : Bytes) :
  s.write? now room data =
    let taken := data.take (room.getD data.length)
    if taken.isEmpty && !data.isEmpty then none
    else some (.ok taken.length, { s with sent := s.sent ++ taken })
  := by
  simp [WireStream.write?, hasPassed, h.isOpen, h.unasked, h.untimed]

theorem IsOpen.write?_all {s : WireStream} (h : s.IsOpen) (now : Nat) (data : Bytes) :
  s.write? now none data = some (.ok data.length, { s with sent := s.sent ++ data })
  := by
  rw [h.write?]
  simp

/-- On a swift network a side is closed at once. -/
theorem IsOpen.shutdown? {s : WireStream} (h : s.IsOpen) (now : Nat) :
  s.shutdown? now .acknowledged
    = some (.ok (), { s with side := .closed, signals := s.signals ++ [.finish] })
  := by
  simp [WireStream.shutdown?, finish, advance, hasPassed, h.isOpen, h.unasked, h.untimed]

/-- A write changes nothing but what has been sent. -/
theorem write?_eq
    {now : Nat} {room : Option Nat} {data : Bytes} {s : WireStream}
    {r : Except IoError Nat × WireStream} (h : s.write? now room data = some r) :
  ∃ sent, r.2 = { s with sent }
  := by
  rw [WireStream.write?] at h
  split at h
  · cases h
    exact ⟨s.sent, rfl⟩
  · split at h
    · cases h
      exact ⟨s.sent, rfl⟩
    · split at h
      · cases h
        exact ⟨s.sent, rfl⟩
      · dsimp only at h
        split at h
        · obtain ⟨d, -, rfl⟩ := Option.map_eq_some_iff.mp h
          exact ⟨s.sent, rfl⟩
        · cases h
          exact ⟨_, rfl⟩

theorem finish_eq (s : WireStream) :
  ∃ side, s.finish = { s with side }
  := by
  rw [finish]
  split
  · exact ⟨_, rfl⟩
  · exact ⟨_, rfl⟩

theorem advance_eq (s : WireStream) (headway : Headway) :
  ∃ side signals, s.advance headway = { s with side, signals }
  := by
  rw [advance]
  split
  · split
    · exact ⟨_, _, rfl⟩
    · exact ⟨_, _, rfl⟩
  · split
    · exact ⟨_, _, rfl⟩
    · exact ⟨_, _, rfl⟩
  · exact ⟨_, _, rfl⟩

theorem cancelWrite_eq (s : WireStream) (code : Nat) :
  ∃ side signals, s.cancelWrite code = { s with side, signals }
  := by
  rw [cancelWrite]
  split
  · exact ⟨_, _, rfl⟩
  · exact ⟨_, _, rfl⟩
  · exact ⟨_, _, rfl⟩

/-- Closing the side that is written does nothing to the other side. -/
theorem shutdown?_eq
    {s s' : WireStream} {now : Nat} {headway : Headway} {answer : Except IoError Unit}
    (h : s.shutdown? now headway = some (answer, s')) :
  ∃ side signals, s' = { s with side, signals }
  := by
  rw [WireStream.shutdown?] at h
  split at h
  · cases h
    exact ⟨_, _, rfl⟩
  · split at h
    · cases h
      exact ⟨_, _, rfl⟩
    · split at h
      · cases h
        exact ⟨_, _, rfl⟩
      · obtain ⟨side, hfinish⟩ := s.finish_eq
        obtain ⟨side', signals, hadvance⟩ := s.finish.advance_eq headway
        rw [hadvance, hfinish] at h
        dsimp only at h
        split at h
        · cases h
          exact ⟨_, _, rfl⟩
        · obtain ⟨d, -, hd⟩ := Option.map_eq_some_iff.mp h
          cases hd
          exact ⟨_, _, rfl⟩

/-- What is acknowledged at once is not waited for. -/
theorem exists_shutdown?_acknowledged (s : WireStream) (now : Nat) :
  ∃ answer s', s.shutdown? now .acknowledged = some (answer, s')
  := by
  have hside (hclosed : s.side ≠ .closed) :
      (s.finish.advance .acknowledged).side = .closing .acknowledged := by
    rcases h : s.side with _ | (_ | _ | _) | _
    · simp [finish, advance, h]
    · simp [finish, advance, h]
    · simp [finish, advance, h]
    · simp [finish, advance, h]
    · exact absurd h hclosed
  rw [WireStream.shutdown?]
  split
  · exact ⟨_, _, rfl⟩
  · next hclosed =>
    split
    · exact ⟨_, _, rfl⟩
    · split
      · exact ⟨_, _, rfl⟩
      · dsimp only
        rw [if_pos (hside hclosed)]
        exact ⟨_, _, rfl⟩

theorem use?_writeAll {s : WireStream} (h : s.IsOpen) (now : Nat) (data : Bytes) :
  s.use? now (Stream.writeAll data) = some (.ok (), { s with sent := s.sent ++ data })
  := by
  cases data with
  | nil =>
    rw [List.append_nil]
    rfl
  | cons b rest =>
    rw [Stream.writeAll, List.length_cons, Stream.writeRest]
    apply (use?_step (.write (b :: rest)) (h.write?_all now _) _).trans
    dsimp only
    rw [if_neg (by simp), List.drop_length, Stream.writeRest]
    rfl

/-- Writing an envelope sends its document and finishes. -/
theorem use?_writeEnvelope {s : WireStream} (h : s.IsOpen) (now : Nat) (e : Envelope) :
  s.use? now (Stream.writeEnvelope e)
    = some (.ok (), { s with
        sent := s.sent ++ Envelope.encode e
        side := .closed
        signals := s.signals ++ [.finish] })
  := by
  have hsent : IsOpen { s with sent := s.sent ++ Envelope.encode e } := ⟨h.1, h.2, h.3⟩
  rw [Stream.writeEnvelope, use?_bind (use?_writeAll h now _)]
  exact use?_step .shutdown (hsent.shutdown? now) _

/-! ### Reading -/

/-- Whether all of the input has arrived. -/
structure IsWhole (s : WireStream) : Prop where
  ended : s.ended = some .finish
  unstopped : s.readStopped = none
  untimed : s.readDeadline = none

theorem dropBytes_flatten (n : Nat) (fragments : List Bytes) :
  (dropBytes n fragments).flatten = fragments.flatten.drop n
  := by
  induction fragments generalizing n with
  | nil => simp [dropBytes]
  | cons fragment rest ih =>
    rw [dropBytes, List.flatten_cons]
    by_cases h : n < fragment.length
    · rw [if_pos h, List.flatten_cons, List.drop_append_of_le_length (Nat.le_of_lt h)]
    · rw [if_neg h, ih, List.drop_append, List.drop_of_length_le (Nat.not_lt.mp h),
        List.nil_append]

theorem flatten_dropWhile_isEmpty (fragments : List Bytes) :
  (fragments.dropWhile List.isEmpty).flatten = fragments.flatten
  := by
  induction fragments with
  | nil => rfl
  | cons fragment rest ih =>
    cases fragment with
    | nil => simpa using ih
    | cons b fragment => rfl

theorem dropWhile_isEmpty_of_flatten {fragments : List Bytes} (h : fragments.flatten = []) :
  fragments.dropWhile List.isEmpty = []
  := by
  induction fragments with
  | nil => rfl
  | cons fragment rest ih =>
    obtain ⟨rfl, hrest⟩ := List.append_eq_nil_iff.mp h
    exact ih hrest

/-- What a read in time gives depends on what has arrived. -/
theorem read?_of_unstopped
    {s : WireStream} {now : Nat} (hintime : ¬ hasPassed now s.readDeadline)
    (hunstopped : ¬ s.readStopped.isSome) {n : Nat} (hn : n ≠ 0) :
  s.read? now n =
    match s.ended, s.arrived.dropWhile List.isEmpty with
    | some (.reset code), _ => some (.error (.stream (.reset code)), s)
    | _, fragment :: rest =>
      some (.ok (fragment.take n), { s with arrived := fragment.drop n :: rest })
    | some .finish, [] => some (.ok [], s)
    | none, [] => s.waitToRead.map fun e => (.error e, s)
  :=
  (if_neg hintime).trans (if_neg (not_or.mpr ⟨hn, hunstopped⟩))

/-- Whether what arrives is read: nobody stops reading, and no deadline is set. -/
structure IsReading (s : WireStream) : Prop where
  unstopped : s.readStopped = none
  untimed : s.readDeadline = none

theorem IsWhole.isReading {s : WireStream} (h : s.IsWhole) :
  s.IsReading
  :=
  ⟨h.unstopped, h.untimed⟩

theorem IsReading.read?
    {s : WireStream} (h : s.IsReading) (now : Nat) {n : Nat} (hn : 0 < n) :
  s.read? now n =
    match s.ended, s.arrived.dropWhile List.isEmpty with
    | some (.reset code), _ => some (.error (.stream (.reset code)), s)
    | _, fragment :: rest =>
      some (.ok (fragment.take n), { s with arrived := fragment.drop n :: rest })
    | some .finish, [] => some (.ok [], s)
    | none, [] => none
  := by
  have hintime : ¬ hasPassed now s.readDeadline := by
    simp [h.untimed, hasPassed]
  have hunstopped : ¬ s.readStopped.isSome := by
    simp [h.unstopped]
  rw [read?_of_unstopped hintime hunstopped (Nat.ne_of_gt hn), waitToRead, h.untimed]
  rfl

/-- Nothing but the reset is read of a stream that was reset. -/
theorem read?_of_reset
    {s : WireStream} {code : Nat} (h : s.IsReading) (hended : s.ended = some (.reset code))
    (now : Nat) {n : Nat} (hn : 0 < n) :
  s.read? now n = some (.error (.stream (.reset code)), s)
  := by
  rw [h.read? now hn, hended]

/-- A read waits where nothing has arrived. -/
theorem read?_of_empty
    {s : WireStream} (h : s.IsReading) (hended : s.ended = none) (harrived : s.arrived.flatten = [])
    (now : Nat) {n : Nat} (hn : 0 < n) :
  s.read? now n = none
  := by
  rw [h.read? now hn, hended, dropWhile_isEmpty_of_flatten harrived]

/-- A read gives some of what has arrived, in its order, unless the stream was reset. -/
theorem read?_of_arrived
    {s : WireStream} (h : s.IsReading) (hended : ∀ code, s.ended ≠ some (.reset code))
    (harrived : s.arrived.flatten ≠ []) (now : Nat) {n : Nat} (hn : 0 < n) :
  ∃ b piece arrived, s.read? now n = some (.ok (b :: piece), { s with arrived })
    ∧ s.arrived.flatten = b :: piece ++ arrived.flatten
  := by
  rw [← flatten_dropWhile_isEmpty] at harrived ⊢
  rw [h.read? now hn]
  have hhead := List.head?_dropWhile_not List.isEmpty s.arrived
  cases hfragments : s.arrived.dropWhile List.isEmpty with
  | nil =>
    rw [hfragments] at harrived
    exact absurd rfl harrived
  | cons fragment rest =>
    rw [hfragments] at hhead
    cases fragment with
    | nil => simp at hhead
    | cons b piece =>
      obtain ⟨k, rfl⟩ : ∃ k, n = k + 1 := ⟨n - 1, by omega⟩
      refine ⟨b, piece.take k, piece.drop k :: rest, ?_, ?_⟩
      · cases hsignal : s.ended with
        | none => rfl
        | some signal =>
          cases signal with
          | finish => rfl
          | reset code => exact absurd hsignal (hended code)
      · rw [List.flatten_cons, List.flatten_cons, List.cons_append, List.cons_append,
          ← List.append_assoc, List.take_append_drop]

/-- A read gives some of what is left of the input, in its order. -/
theorem read?_of_isWhole {s : WireStream} (h : s.IsWhole) (now : Nat) {n : Nat} (hn : 0 < n) :
  (s.arrived.flatten = [] ∧ s.read? now n = some (.ok [], s))
  ∨ ∃ b piece arrived, s.read? now n = some (.ok (b :: piece), { s with arrived })
    ∧ s.arrived.flatten = b :: piece ++ arrived.flatten
  := by
  by_cases hempty : s.arrived.flatten = []
  · refine .inl ⟨hempty, ?_⟩
    rw [h.isReading.read? now hn, h.ended, dropWhile_isEmpty_of_flatten hempty]
  · have hended : ∀ code, s.ended ≠ some (.reset code) := by
      intro code
      rw [h.ended]
      simp
    exact .inr (read?_of_arrived h.isReading hended hempty now hn)

/-- A drain gives the input from its front. -/
theorem drain?_of_isWhole {s : WireStream} (h : s.IsWhole) (now : Nat) {n : Nat} (hn : n ≠ 0) :
  ∃ arrived, s.drain? now (some n)
      = some (⟨s.arrived.flatten.take n,
        if s.arrived.flatten.length < n then .finished else .full⟩, { s with arrived })
    ∧ arrived.flatten = s.arrived.flatten.drop n
  := by
  have hpassed : hasPassed now s.readDeadline = false := by
    rw [h.untimed]
    rfl
  rw [drain?, if_neg (by simpa using hn), hpassed, if_neg (by simp), h.unstopped, if_neg (by simp),
    h.ended]
  by_cases hlt : s.arrived.flatten.length < n
  · have hfilter : (some n).filter (· ≤ s.arrived.flatten.length) = none := by
      rw [Option.filter_some_neg]
      simpa using hlt
    refine ⟨[], ?_, ?_⟩
    · dsimp only
      rw [hfilter, if_pos hlt, List.take_of_length_le (Nat.le_of_lt hlt)]
      rfl
    · rw [List.drop_of_length_le (Nat.le_of_lt hlt)]
      rfl
  · have hfilter : (some n).filter (· ≤ s.arrived.flatten.length) = some n := by
      rw [Option.filter_some_pos]
      simpa using hlt
    refine ⟨dropBytes n s.arrived, ?_, dropBytes_flatten n s.arrived⟩
    dsimp only
    rw [hfilter, if_neg hlt]

/-- Nothing may be left of the input behind the last byte that a limit lets through. -/
theorem use?_beyond {s : WireStream} (h : s.IsWhole) (now limit : Nat) (data : Bytes) :
  ∃ arrived, s.use? now (Layer.beyond limit data)
    = some ((⟨data,
        if s.arrived.flatten = [] then .finished else .failed (Layer.limitError limit)⟩,
      .limited limit 0), { s with arrived })
  := by
  rw [Layer.beyond_eq]
  obtain ⟨hempty, hread⟩ | ⟨b, piece, arrived, hread, hflatten⟩ :=
    read?_of_isWhole h now Nat.one_pos
  · refine ⟨s.arrived, ?_⟩
    rw [if_pos hempty]
    exact use?_step (.read 1) hread _
  · refine ⟨arrived, ?_⟩
    rw [if_neg (by simp [hflatten])]
    exact use?_step (.read 1) hread _

/-- Reading under a limit gives the input if it is within the limit, and fails if not. -/
theorem use?_readAllUnder {s : WireStream} (h : s.IsWhole) (now limit remaining : Nat) :
  ∃ arrived layer, s.use? now (readAllUnder (.limited limit remaining))
    = some ((underLimit limit remaining s.arrived.flatten, layer), { s with arrived })
  := by
  rw [readAllUnder_limited, underLimit]
  by_cases hzero : remaining = 0
  · subst hzero
    obtain ⟨arrived, hbeyond⟩ := use?_beyond h now limit []
    refine ⟨arrived, .limited limit 0, ?_⟩
    rw [if_pos rfl, hbeyond]
    cases s.arrived.flatten with
    | nil => rfl
    | cons b rest => rfl
  · rw [if_neg hzero]
    obtain ⟨arrived, hdrain, hflatten⟩ := drain?_of_isWhole h now hzero
    by_cases hlt : s.arrived.flatten.length < remaining
    · rw [if_pos hlt, List.take_of_length_le (Nat.le_of_lt hlt)] at hdrain
      rw [if_pos (Nat.le_of_lt hlt)]
      exact ⟨arrived, _, use?_step (.drain (some remaining)) hdrain _⟩
    · rw [if_neg hlt] at hdrain
      have hwhole : IsWhole { s with arrived } := ⟨h.1, h.2, h.3⟩
      obtain ⟨arrived', hbeyond⟩ := use?_beyond hwhole now limit (s.arrived.flatten.take remaining)
      refine ⟨arrived', .limited limit 0, ?_⟩
      apply (use?_step (.drain (some remaining)) hdrain _).trans
      apply hbeyond.trans
      dsimp only
      rw [hflatten]
      by_cases hle : s.arrived.flatten.length ≤ remaining
      · rw [if_pos hle, List.take_of_length_le hle, if_pos (List.drop_of_length_le hle)]
      · rw [if_neg hle, if_neg (mt List.drop_eq_nil_iff.mp hle)]

/-- Reads of at most so many bytes find all of the input, whatever the pieces it came in. -/
theorem collectWithin_of_isWhole
    {s : WireStream} (h : s.IsWhole) (now : Nat) {chunk n : Nat} (hchunk : 0 < chunk)
    (hn : s.arrived.flatten.length < n) (data : Bytes) :
  ∃ arrived, collectWithin now chunk n data s
    = some (.ok (data ++ s.arrived.flatten), { s with arrived })
  := by
  induction n generalizing s data with
  | zero => omega
  | succ n ih =>
    rw [collectWithin]
    obtain ⟨hempty, hread⟩ | ⟨b, piece, arrived, hread, hflatten⟩ :=
      read?_of_isWhole h now hchunk
    · refine ⟨s.arrived, ?_⟩
      rw [hread, hempty, List.append_nil]
    · have hwhole : IsWhole { s with arrived } := ⟨h.1, h.2, h.3⟩
      rw [hflatten, List.length_append, List.length_cons] at hn
      have hlength : arrived.flatten.length < n := by omega
      obtain ⟨arrived', hrest⟩ := ih hwhole hlength (data ++ b :: piece)
      refine ⟨arrived', ?_⟩
      rw [hread, hflatten]
      simpa using hrest

theorem collect?_of_isWhole
    {s : WireStream} (h : s.IsWhole) (now : Nat) {chunk : Nat} (hchunk : 0 < chunk) :
  ∃ arrived, s.collect? now chunk = some (.ok s.arrived.flatten, { s with arrived })
  :=
  collectWithin_of_isWhole h now hchunk (Nat.lt_succ_self _) []

/-- Reading a stream that was reset fails with the code. -/
theorem collect?_of_reset
    {s : WireStream} {code : Nat} (h : s.IsReading) (hended : s.ended = some (.reset code))
    (now : Nat) {chunk : Nat} (hchunk : 0 < chunk) :
  s.collect? now chunk = some (.error (.stream (.reset code)), s)
  := by
  rw [collect?, collectWithin, read?_of_reset h hended now hchunk]

/-- Whether nothing has arrived on a stream and everything that will is read. -/
structure IsUnread (s : WireStream) : Prop where
  empty : s.arrived = []
  ended : s.ended = none
  unstopped : s.readStopped = none
  untimed : s.readDeadline = none

/-- What is collected of a text and the signal behind it. -/
def collected : Bytes × Signal → Except IoError Bytes
  | (data, .finish) => .ok data
  | (_, .reset code) => .error (.stream (.reset code))

/-- However what the peer sends is cut into pieces, it is collected as it was sent. -/
theorem collect?_outgoing
    {s t : WireStream} {reply : Bytes × Signal} {cut : Bytes → List Bytes} (h : s.IsUnread)
    (hsent : t.sent = reply.1) (hsignals : t.signals = [reply.2])
    (hcut : ∀ data, (cut data).flatten = data) (now : Nat) {chunk : Nat} (hchunk : 0 < chunk) :
  ∃ s', ((t.outgoing cut).foldl receive s).collect? now chunk = some (collected reply, s')
  := by
  obtain ⟨data, signal⟩ := reply
  cases signal with
  | finish =>
    rw [foldl_receive_finished h.ended hsignals]
    obtain ⟨arrived, hcollect⟩ := @collect?_of_isWhole
      { s with arrived := s.arrived ++ cut t.sent, ended := some .finish }
      ⟨rfl, h.unstopped, h.untimed⟩ now chunk hchunk
    have hdata : (s.arrived ++ cut t.sent).flatten = data := by
      rw [h.empty, List.nil_append, hcut, hsent]
    exact ⟨_, hcollect.trans (congrArg (fun data => some (Except.ok data, _)) hdata)⟩
  | reset code =>
    rw [foldl_receive_reset h.ended hsignals]
    exact ⟨_, @collect?_of_reset { s with arrived := [], ended := some (.reset code) }
      code ⟨h.unstopped, h.untimed⟩ rfl now chunk hchunk⟩

/-! ### The token -/

theorem token_of_read?
    {now n : Nat} {s : WireStream} {r : Except IoError Bytes × WireStream}
    (h : s.read? now n = some r) :
  r.2.token = s.token
  := by
  rw [read?] at h
  split at h
  · cases h
    rfl
  · split at h
    · cases h
      rfl
    · split at h
      · cases h
        rfl
      · cases h
        rfl
      · cases h
        rfl
      · obtain ⟨e, -, rfl⟩ := Option.map_eq_some_iff.mp h
        rfl

theorem token_of_drain?
    {now : Nat} {upTo : Option Nat} {s : WireStream} {r : Drained × WireStream}
    (h : s.drain? now upTo = some r) :
  r.2.token = s.token
  := by
  simp only [drain?] at h
  split at h
  · cases h
    rfl
  · split at h
    · cases h
      rfl
    · split at h
      · cases h
        rfl
      · split at h
        · cases h
          rfl
        · split at h
          · cases h
            rfl
          · split at h
            · cases h
              rfl
            · obtain ⟨e, -, rfl⟩ := Option.map_eq_some_iff.mp h
              rfl

theorem token_of_write?
    {now : Nat} {room : Option Nat} {data : Bytes} {s : WireStream}
    {r : Except IoError Nat × WireStream} (h : s.write? now room data = some r) :
  r.2.token = s.token
  := by
  obtain ⟨sent, heq⟩ := write?_eq h
  rw [heq]

theorem token_cancelWrite (s : WireStream) (code : Nat) :
  (s.cancelWrite code).token = s.token
  := by
  obtain ⟨side, signals, heq⟩ := s.cancelWrite_eq code
  rw [heq]

theorem token_receive (s : WireStream) (event : PeerEvent) :
  (s.receive event).token = s.token
  := by
  rcases event with fragment | (- | code) | code
  · rw [receive]
    split <;> rfl
  · rfl
  · rw [receive]
    split <;> rfl
  · rfl

/-- No operation exchanges the token. -/
theorem token_of_answer?
    {now : Nat} {s : WireStream} {op : StreamOp} {r : op.Answer × WireStream}
    (h : s.answer? now op = some r) :
  r.2.token = s.token
  := by
  cases op with
  | read n => exact token_of_read? h
  | drain upTo => exact token_of_drain? h
  | write data => exact token_of_write? h
  | shutdown =>
    obtain ⟨side, signals, heq⟩ := shutdown?_eq h
    rw [heq]
  | cancelWrite code =>
    cases h
    exact s.token_cancelWrite code
  | id | token | flush | cancelRead | setReadDeadline | setWriteDeadline =>
    cases h
    rfl

theorem token_of_collect?
    {now chunk : Nat} {s : WireStream} {r : Except IoError Bytes × WireStream}
    (h : s.collect? now chunk = some r) :
  r.2.token = s.token
  := by
  have hwithin : ∀ (n : Nat) (data : Bytes) (s : WireStream),
      collectWithin now chunk n data s = some r → r.2.token = s.token := by
    intro n
    induction n with
    | zero =>
      intro data s h
      cases h
    | succ n ih =>
      intro data s h
      rw [collectWithin] at h
      cases hread : s.read? now chunk with
      | none =>
        rw [hread] at h
        cases h
      | some read =>
        rw [hread] at h
        have htoken := token_of_read? hread
        obtain ⟨e | - | ⟨b, piece⟩, t⟩ := read
        · cases h
          exact htoken
        · cases h
          exact htoken
        · exact (ih _ t h).trans htoken
  exact hwithin _ _ s h

end StreamCall.WireStream
