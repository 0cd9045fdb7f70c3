import StreamCall.Proofs.Stream.Tee

/-!
# The two sides of a stream in memory

Each side of a stream in memory only moves forward, whatever is asked of the stream
(`sides_move_forward`).  The side that is written is settled once, by the first operation that
closes or resets it (`side_after`), and the flags that tell of both never contradict each other
(`Flags.not_both_after`).  What has been read and what is left make up the input (`unread_after`).
What is asked of one side goes past the other one: each side fares, and answers, as if nothing had
been asked of the other (`exchanges_filter`).
-/

namespace StreamCall

/-! ### Operations one after the other -/

/-- Asks for operations one after the other. -/
def Stream.askEach : List StreamOp → Stream.Use (List Exchange)
  | [] => .done []
  | op :: ops =>
    .step op fun answer => (askEach ops).bind fun rest => .done (⟨op, answer⟩ :: rest)

namespace MemoryStream

/-- The stream after some operations. -/
def after (s : MemoryStream) (ops : List StreamOp) : MemoryStream :=
  ops.foldl (fun s op => (s.answer op).2) s

/-- Operations with their answers. -/
def exchanges (s : MemoryStream) : List StreamOp → List Exchange
  | [] => []
  | op :: ops => ⟨op, (s.answer op).1⟩ :: exchanges (s.answer op).2 ops

/-- What every operation keeps, they all keep. -/
theorem keeps_after
    {P : MemoryStream → Prop} (h : ∀ s op, P s → P (s.answer op).2) {s : MemoryStream} (hs : P s)
    (ops : List StreamOp) :
  P (s.after ops)
  := by
  induction ops generalizing s with
  | nil => exact hs
  | cons op ops ih => exact ih (h s op hs)

theorem run_askEach (s : MemoryStream) (ops : List StreamOp) :
  s.run (Stream.askEach ops) = (.done (s.exchanges ops), s.after ops)
  := by
  induction ops generalizing s with
  | nil => rfl
  | cons op ops ih => exact run_bind (ih (s.answer op).2) _

end MemoryStream

/-! ### The side that is written -/

/-- The side of a stream that is written, by two flags: whether it has been closed, and the code it
has been reset with. -/
structure Flags where
  closed : Bool
  resetCode : Option Nat
deriving DecidableEq

namespace Flags

/-- What an operation makes of the flags. -/
def next (flags : Flags) : StreamOp → Flags
  | .shutdown => if flags.resetCode.isSome then flags else { flags with closed := true }
  | .cancelWrite code =>
    if flags.resetCode.isNone && !flags.closed then { flags with resetCode := some code } else flags
  | _ => flags

/-- Whether both flags are set. -/
def Both (flags : Flags) : Prop := flags.closed = true ∧ flags.resetCode.isSome = true

theorem not_both_next {flags : Flags} (h : ¬ flags.Both) (op : StreamOp) :
  ¬ (flags.next op).Both
  := by
  obtain ⟨_ | _, _ | code⟩ := flags <;> cases op <;> simp_all [next, Both]

/-- Only one of the flags is ever set. -/
theorem not_both_after {flags : Flags} (h : ¬ flags.Both) (ops : List StreamOp) :
  ¬ (ops.foldl next flags).Both
  := by
  induction ops generalizing flags with
  | nil => exact h
  | cons op ops ih => exact ih (not_both_next h op)

end Flags

/-- How an operation settles the side that is written, if that is open. -/
def StreamOp.settles? : StreamOp → Option WriteSide
  | .shutdown => some .closed
  | .cancelWrite code => some (.reset code)
  | _ => none

/-- A side that is settled somehow, unless it has been settled before. -/
def WriteSide.settle : WriteSide → Option WriteSide → WriteSide
  | .opened, some side => side
  | side, _ => side

theorem WriteSide.settle_none (side : WriteSide) :
  side.settle none = side
  := by
  cases side <;> rfl

theorem WriteSide.settle_settle (side : WriteSide) (op : StreamOp) (later : Option WriteSide) :
  (side.settle op.settles?).settle later = side.settle (op.settles?.or later)
  := by
  cases side <;> cases op <;> rfl

namespace MemoryStream

variable (s : MemoryStream) (ops : List StreamOp)

/-- The flags of the side that is written. -/
def flags : Flags := ⟨s.isClosed, s.resetCode?⟩

theorem not_both_flags :
  ¬ s.flags.Both
  := by
  obtain ⟨_, _, _, _, _, _ | _ | _, _, _⟩ := s <;> simp [flags, Flags.Both, isClosed, resetCode?]

theorem side_answer (op : StreamOp) :
  (s.answer op).2.side = s.side.settle op.settles?
  := by
  apply (congrArg Prod.fst (s.output_answer op)).trans
  rw [output]
  cases op <;> cases s.side <;> rfl

/-- The first operation that closes or resets the side settles it. -/
theorem side_after :
  (s.after ops).side = s.side.settle (ops.findSome? StreamOp.settles?)
  := by
  induction ops generalizing s with
  | nil => exact s.side.settle_none.symm
  | cons op ops ih =>
    apply (ih (s.answer op).2).trans
    rw [side_answer, WriteSide.settle_settle, List.findSome?_cons]
    cases op.settles? <;> rfl

theorem flags_answer (op : StreamOp) :
  (s.answer op).2.flags = s.flags.next op
  := by
  simp only [flags, isClosed, resetCode?, side_answer]
  cases op <;> cases s.side <;> rfl

theorem flags_after :
  (s.after ops).flags = ops.foldl Flags.next s.flags
  := by
  induction ops generalizing s with
  | nil => rfl
  | cons op ops ih =>
    apply (ih (s.answer op).2).trans
    rw [flags_answer, List.foldl_cons]

theorem written_after :
  (s.after ops).written = s.written ++ (s.exchanges ops).flatMap Exchange.accepted
  := by
  induction ops generalizing s with
  | nil => exact (List.append_nil _).symm
  | cons op ops ih =>
    apply (ih (s.answer op).2).trans
    rw [written_answer, List.append_assoc, exchanges, List.flatMap_cons]

theorem output_answer_of_ne {s : MemoryStream} (h : s.side ≠ .opened) (op : StreamOp) :
  (s.answer op).2.output = s.output
  := by
  rw [output_answer, output]
  cases hside : s.side with
  | opened => exact absurd hside h
  | closed | reset code => cases op <;> rfl

/-- A side that has been closed or reset keeps its output. -/
theorem output_after_of_ne {s : MemoryStream} (h : s.side ≠ .opened) (ops : List StreamOp) :
  (s.after ops).output = s.output
  := by
  have hafter : (s.after ops).side ≠ .opened ∧ (s.after ops).output = s.output := by
    apply keeps_after (P := fun t => t.side ≠ .opened ∧ t.output = s.output)
    · rintro t op ⟨hside, houtput⟩
      have hanswer := output_answer_of_ne hside op
      have hkept : (t.answer op).2.side = t.side := congrArg Prod.fst hanswer
      exact ⟨hkept ▸ hside, hanswer.trans houtput⟩
    · exact ⟨h, rfl⟩
  exact hafter.2

theorem write_of_ne {s : MemoryStream} (h : s.side ≠ .opened) (data : Bytes) :
  ∃ e, e.kind = .brokenPipe ∧ s.write data = (.error e, s)
  := by
  rw [write]
  cases hside : s.side with
  | opened => exact absurd hside h
  | closed => exact ⟨closedError, rfl, rfl⟩
  | reset code => exact ⟨resetError, rfl, rfl⟩

theorem shutdown_eq_ok_iff :
  s.shutdown.1 = .ok () ↔ s.resetCode? = none
  := by
  rw [shutdown, resetCode?]
  cases s.side <;> simp

end MemoryStream

/-! ### The side that is read -/

/-- The code that an operation stops the side with that is read. -/
def StreamOp.stops? : StreamOp → Option Nat
  | .cancelRead code => some code
  | _ => none

/-- Whether an operation goes to the side that is read. -/
def StreamOp.reads : StreamOp → Bool
  | .read _ | .drain _ | .cancelRead _ | .setReadDeadline _ => true
  | _ => false

/-- Whether an operation goes to the side that is written. -/
def StreamOp.writes : StreamOp → Bool
  | .write _ | .flush | .shutdown | .cancelWrite _ | .setWriteDeadline _ => true
  | _ => false

/-- The side of a stream that is read. -/
structure ReadHalf where
  unread : Bytes
  stopped : Option Nat
  deadline : Option Nat
deriving DecidableEq

/-- The side of a stream that is written. -/
structure WriteHalf where
  written : Bytes
  side : WriteSide
  deadline : Option Nat
deriving DecidableEq

namespace MemoryStream

variable (s : MemoryStream) (ops : List StreamOp)

/-- The side that is read. -/
def readHalf : ReadHalf := ⟨s.unread, s.readStopped, s.readDeadline⟩

/-- The side that is written. -/
def writeHalf : WriteHalf := ⟨s.written, s.side, s.writeDeadline⟩

/-- The same stream with another side to read. -/
def withReadHalf (half : ReadHalf) : MemoryStream :=
  { s with unread := half.unread, readStopped := half.stopped, readDeadline := half.deadline }

/-- The same stream with another side to write. -/
def withWriteHalf (half : WriteHalf) : MemoryStream :=
  { s with written := half.written, side := half.side, writeDeadline := half.deadline }

/-- Each operation changes at most the side it goes to. -/
theorem answer_cases (op : StreamOp) :
  (op.reads = true ∧ (s.answer op).2 = s.withReadHalf (s.answer op).2.readHalf)
    ∨ (op.writes = true ∧ (s.answer op).2 = s.withWriteHalf (s.answer op).2.writeHalf)
    ∨ (s.answer op).2 = s
  := by
  cases op with
  | read n =>
    refine .inl ⟨rfl, ?_⟩
    obtain ⟨_, _, _, _ | code, _, _, _, _⟩ := s <;> rfl
  | drain upTo =>
    refine .inl ⟨rfl, ?_⟩
    obtain ⟨_, _, _, _ | code, _, _, _, _⟩ := s <;> obtain _ | _ | n := upTo <;> rfl
  | cancelRead | setReadDeadline => exact .inl ⟨rfl, rfl⟩
  | write | shutdown | cancelWrite =>
    refine .inr (.inl ⟨rfl, ?_⟩)
    obtain ⟨_, _, _, _, _, _ | _ | _, _, _⟩ := s <;> rfl
  | setWriteDeadline => exact .inr (.inl ⟨rfl, rfl⟩)
  | id | token | flush => exact .inr (.inr rfl)

theorem readHalf_answer {op : StreamOp} (h : op.reads = false) :
  (s.answer op).2.readHalf = s.readHalf
  := by
  obtain ⟨hreads, -⟩ | ⟨-, heq⟩ | heq := s.answer_cases op
  · rw [h] at hreads
    cases hreads
  · rw [heq]
    rfl
  · rw [heq]

theorem writeHalf_answer {op : StreamOp} (h : op.writes = false) :
  (s.answer op).2.writeHalf = s.writeHalf
  := by
  obtain ⟨-, heq⟩ | ⟨hwrites, -⟩ | heq := s.answer_cases op
  · rw [heq]
    rfl
  · rw [h] at hwrites
    cases hwrites
  · rw [heq]

/-- The number and the token go with the stream. -/
theorem names_answer (op : StreamOp) :
  (s.answer op).2.id = s.id ∧ (s.answer op).2.token = s.token
  := by
  obtain ⟨-, heq⟩ | ⟨-, heq⟩ | heq := s.answer_cases op
  all_goals
    rw [heq]
    exact ⟨rfl, rfl⟩

theorem names_after :
  (s.after ops).id = s.id ∧ (s.after ops).token = s.token
  := by
  apply keeps_after (P := fun t => t.id = s.id ∧ t.token = s.token)
  · rintro t op ⟨hid, htoken⟩
    obtain ⟨hid', htoken'⟩ := t.names_answer op
    exact ⟨hid'.trans hid, htoken'.trans htoken⟩
  · exact ⟨rfl, rfl⟩

/-- What has been read and what is left make up what was there. -/
theorem unread_answer (op : StreamOp) :
  s.unread = Exchange.read ⟨op, (s.answer op).1⟩ ++ (s.answer op).2.unread
  := by
  cases op with
  | read n =>
    obtain ⟨_, _, unread, _ | code, _, _, _, _⟩ := s
    · exact (unread.take_append_drop n).symm
    · rfl
  | drain upTo =>
    obtain ⟨_, _, unread, _ | code, _, _, _, _⟩ := s <;> obtain _ | _ | n := upTo
    · exact unread.append_nil.symm
    · rfl
    · exact (unread.take_append_drop (n + 1)).symm
    all_goals rfl
  | write | shutdown | cancelWrite =>
    exact congrArg ReadHalf.unread (s.readHalf_answer rfl).symm
  | _ => rfl

theorem unread_after :
  s.unread = (s.exchanges ops).flatMap Exchange.read ++ (s.after ops).unread
  := by
  induction ops generalizing s with
  | nil => rfl
  | cons op ops ih =>
    rw [exchanges, List.flatMap_cons, List.append_assoc, after, List.foldl_cons, ← after,
      ← ih (s.answer op).2]
    exact s.unread_answer op

theorem readStopped_answer (op : StreamOp) :
  (s.answer op).2.readStopped = s.readStopped.or op.stops?
  := by
  have hor : s.readStopped = s.readStopped.or none := Option.or_none.symm
  cases op with
  | read n =>
    obtain ⟨_, _, _, _ | code, _, _, _, _⟩ := s <;> rfl
  | drain upTo =>
    obtain ⟨_, _, _, _ | code, _, _, _, _⟩ := s <;> obtain _ | _ | n := upTo <;> rfl
  | write | shutdown | cancelWrite =>
    exact (congrArg ReadHalf.stopped (s.readHalf_answer rfl)).trans hor
  | cancelRead code => rfl
  | _ => exact hor

/-- The first code is kept. -/
theorem readStopped_after :
  (s.after ops).readStopped = s.readStopped.or (ops.findSome? StreamOp.stops?)
  := by
  induction ops generalizing s with
  | nil => exact Option.or_none.symm
  | cons op ops ih =>
    apply (ih (s.answer op).2).trans
    rw [readStopped_answer, Option.or_assoc, List.findSome?_cons]
    cases op.stops? <;> rfl

theorem unread_answer_of_stopped
    {s : MemoryStream} {code : Nat} (h : s.readStopped = some code) (op : StreamOp) :
  (s.answer op).2.unread = s.unread
  := by
  cases op with
  | read n => exact congrArg (fun r => r.2.unread) (read_of_stopped h n)
  | drain upTo =>
    by_cases hupTo : upTo = some 0
    · rw [hupTo]
      rfl
    · exact congrArg (fun r => r.2.unread) (drain_of_stopped h hupTo)
  | write | shutdown | cancelWrite => exact congrArg ReadHalf.unread (s.readHalf_answer rfl)
  | _ => rfl

/-- A side that has been stopped is not read any further. -/
theorem unread_after_of_stopped
    {s : MemoryStream} {code : Nat} (h : s.readStopped = some code) (ops : List StreamOp) :
  (s.after ops).unread = s.unread
  := by
  have hafter : (s.after ops).readStopped = some code ∧ (s.after ops).unread = s.unread := by
    apply keeps_after (P := fun t => t.readStopped = some code ∧ t.unread = s.unread)
    · rintro t op ⟨hstopped, hunread⟩
      constructor
      · rw [readStopped_answer, hstopped, Option.some_or]
      · exact (unread_answer_of_stopped hstopped op).trans hunread
    · exact ⟨h, rfl⟩
  exact hafter.2

/-! ### One side beside the other -/

/-- Some operations go to a part of a stream: it alone tells what they are answered and what they
make of it, and no other operation changes it. -/
structure IsSide {γ : Type} (part : MemoryStream → γ) (mine : StreamOp → Bool) : Prop where
  other (s : MemoryStream) {op : StreamOp} : mine op = false → part (s.answer op).2 = part s
  alike {s t : MemoryStream} {op : StreamOp} : mine op = true → part s = part t →
    (s.answer op).1 = (t.answer op).1 ∧ part (s.answer op).2 = part (t.answer op).2

/-- A side fares, and answers, as if nothing had been asked of what is beside it. -/
theorem IsSide.exchanges_filter
    {γ : Type} {part : MemoryStream → γ} {mine : StreamOp → Bool} (h : IsSide part mine)
    {s t : MemoryStream} (hpart : part s = part t) (ops : List StreamOp) :
  (s.exchanges ops).filter (fun e => mine e.op) = t.exchanges (ops.filter mine)
    ∧ part (s.after ops) = part (t.after (ops.filter mine))
  := by
  induction ops generalizing s t with
  | nil => exact ⟨rfl, hpart⟩
  | cons op ops ih =>
    cases hmine : mine op with
    | false =>
      have hops : (op :: ops).filter mine = ops.filter mine :=
        List.filter_cons_of_neg (by simp [hmine])
      have hskipped : (s.exchanges (op :: ops)).filter (fun e => mine e.op)
          = ((s.answer op).2.exchanges ops).filter (fun e => mine e.op) :=
        List.filter_cons_of_neg (by simp [hmine])
      rw [hops, hskipped]
      exact ih ((h.other s hmine).trans hpart)
    | true =>
      obtain ⟨hanswer, hnext⟩ := h.alike hmine hpart
      obtain ⟨hexchanges, hafter⟩ := ih hnext
      have hkept : (s.exchanges (op :: ops)).filter (fun e => mine e.op)
          = ⟨op, (s.answer op).1⟩ :: ((s.answer op).2.exchanges ops).filter (fun e => mine e.op) :=
        List.filter_cons_of_pos hmine
      rw [List.filter_cons_of_pos hmine, hkept, hexchanges, hanswer]
      exact ⟨rfl, hafter⟩

theorem isSide_readHalf :
  IsSide readHalf StreamOp.reads
  where
  other s _ h := s.readHalf_answer h
  alike := by
    rintro ⟨_, _, unread, stopped, _, _, _, _⟩ ⟨⟩ op hop h
    obtain ⟨rfl, rfl, rfl⟩ := ReadHalf.mk.inj h
    cases op with
    | read n => cases stopped <;> exact ⟨rfl, rfl⟩
    | drain upTo => obtain _ | _ | n := upTo <;> cases stopped <;> exact ⟨rfl, rfl⟩
    | cancelRead | setReadDeadline => exact ⟨rfl, rfl⟩
    | _ => cases hop

theorem isSide_writeHalf :
  IsSide writeHalf StreamOp.writes
  where
  other s _ h := s.writeHalf_answer h
  alike := by
    rintro ⟨_, _, _, _, _, side, _, _⟩ ⟨⟩ op hop h
    obtain ⟨rfl, rfl, rfl⟩ := WriteHalf.mk.inj h
    cases op with
    | write | shutdown | cancelWrite => cases side <;> exact ⟨rfl, rfl⟩
    | flush | setWriteDeadline => exact ⟨rfl, rfl⟩
    | _ => cases hop

/-! ### Forward only -/

/-- How a stream in memory stands after some operations, beside what it was before. -/
structure Forward (s : MemoryStream) (ops : List StreamOp) (t : MemoryStream) : Prop where
  /-- The side that is written is never closed and reset at once. -/
  flags : t.flags = ops.foldl Flags.next s.flags ∧ ¬ t.flags.Both
  /-- The first operation that closes or resets the side counts. -/
  side : t.side = s.side.settle (ops.findSome? StreamOp.settles?)
  /-- From then on neither that nor the output changes. -/
  settled : s.side ≠ .opened → t.side = s.side ∧ t.written = s.written
  /-- The output is what has been accepted. -/
  written : t.written = s.written ++ (s.exchanges ops).flatMap Exchange.accepted
  /-- An open side accepts whatever is written. -/
  accepts : t.side = .opened →
    ∀ data, t.write data = (.ok data.length, { t with written := t.written ++ data })
  refuses : t.side ≠ .opened →
    ∀ data, ∃ e, e.kind = .brokenPipe ∧ t.write data = (.error e, t)
  shutdown : t.shutdown.1 = .ok () ↔ t.resetCode? = none
  /-- What has been read is the front of the input, in its order. -/
  unread : s.unread = (s.exchanges ops).flatMap Exchange.read ++ t.unread
  /-- The first code that the side is stopped with is kept. -/
  stopped : t.readStopped = s.readStopped.or (ops.findSome? StreamOp.stops?)
  /-- A side that has not been stopped goes on with the input. -/
  delivers : t.readStopped = none →
    ∀ n, t.read n = (.ok (t.unread.take n), { t with unread := t.unread.drop n })
  /-- A side that has been stopped is left where it is. -/
  fails : ∀ code, t.readStopped = some code →
    ∀ n, ∃ e, e.kind = .connectionReset ∧ t.read n = (.error e, t)
  halted : ∀ code, s.readStopped = some code → t.unread = s.unread
  /-- Each side fares as if nothing had been asked of the other one. -/
  reading : (s.exchanges ops).filter (fun e => e.op.reads) = s.exchanges (ops.filter (·.reads))
    ∧ t.readHalf = (s.after (ops.filter (·.reads))).readHalf
  writing : (s.exchanges ops).filter (fun e => e.op.writes) = s.exchanges (ops.filter (·.writes))
    ∧ t.writeHalf = (s.after (ops.filter (·.writes))).writeHalf
  names : t.id = s.id ∧ t.token = s.token

theorem forward_after :
  s.Forward ops (s.after ops)
  where
  flags := ⟨s.flags_after ops, s.flags_after ops ▸ Flags.not_both_after s.not_both_flags ops⟩
  side := s.side_after ops
  settled h := Prod.mk.inj (output_after_of_ne h ops)
  written := s.written_after ops
  accepts h data := by rw [write, h]
  refuses := write_of_ne
  shutdown := (s.after ops).shutdown_eq_ok_iff
  unread := s.unread_after ops
  stopped := s.readStopped_after ops
  delivers := read_of_not_stopped
  fails code h n := ⟨stoppedError code, rfl, read_of_stopped h n⟩
  halted _ h := unread_after_of_stopped h ops
  reading := isSide_readHalf.exchanges_filter rfl ops
  writing := isSide_writeHalf.exchanges_filter rfl ops
  names := s.names_after ops

/-- The two sides of a stream in memory only move forward, and each goes its own way.  Whatever
operations are asked of the stream one after the other, they are all answered, nothing but the
stream is changed, and the stream stands `Forward` of where it was. -/
theorem sides_move_forward {ν : Type} (world : World ν) (s : MemoryStream) (ops : List StreamOp) :
  Stage.run ⟨world, s⟩ (Serving.onStream (Stream.askEach ops))
      = (.done (s.exchanges ops), ⟨world, s.after ops⟩)
    ∧ s.Forward ops (s.after ops)
  := by
  refine ⟨?_, s.forward_after ops⟩
  rw [Stage.run_onStream, run_askEach]

end MemoryStream

end StreamCall
