import StreamCall.Proofs.Stream.Input

/-!
# Feeds

A feed is a stream as far as its users know it: its input comes in pieces of any sizes, with
waits and failures between them, and a read takes of the next piece what it has room for.  A read
into an empty buffer may be answered at once, and input may be thrown away.  What has been
received stands at the front of the input (`Feed.delivered_append_left_prefix`), and a feed under
a layer is a feed again (`Feed.under`).
-/

namespace StreamCall

variable {σ α : Type}

/-! ### Asking -/

/-- Whether an operation is asked of a stream at once.  A drain is a loop of reads. -/
def StreamOp.Single : StreamOp → Prop
  | .drain _ => False
  | _ => True

/-- Whether an operation leaves the input alone. -/
def StreamOp.Aside : StreamOp → Prop
  | .read _ | .drain _ => False
  | _ => True

theorem StreamOp.Single.cases {op : StreamOp} (h : op.Single) :
  (∃ n, op = .read n) ∨ op.Aside
  := by
  cases op with
  | read n => exact .inl ⟨n, rfl⟩
  | drain upTo => cases h
  | _ => exact .inr h

/-- How a stream answers.  An operation without an answer waits, and may be asked again. -/
abbrev Answering (σ : Type) := σ → (op : StreamOp) → Option op.Answer × σ

/-- How a stream answers a read. -/
def Answering.read (answer : Answering σ) (s : σ) (n : Nat) : Option (Except IoError Bytes) × σ :=
  answer s (.read n)

/-- What a read has received. -/
def received : Option (Except IoError Bytes) → Bytes
  | some (.ok data) => data
  | _ => []

@[simp]
theorem received_none :
  received none = []
  :=
  rfl

@[simp]
theorem received_error (e : IoError) :
  received (some (.error e)) = []
  :=
  rfl

@[simp]
theorem received_ok (data : Bytes) :
  received (some (.ok data)) = data
  :=
  rfl

/-- An operation that was asked, and its answer. -/
structure Asked where
  op : StreamOp
  answer : Option op.Answer

/-- What an operation has received. -/
def Asked.data : Asked → Bytes
  | ⟨.read _, answer⟩ => received answer
  | _ => []

theorem Asked.data_of_aside {op : StreamOp} (h : op.Aside) (answer : Option op.Answer) :
  Asked.data ⟨op, answer⟩ = []
  := by
  cases op with
  | read n => cases h
  | _ => rfl

/-- All that has been received. -/
def delivered (asked : List Asked) : Bytes := asked.flatMap Asked.data

theorem delivered_cons (a : Asked) (asked : List Asked) :
  delivered (a :: asked) = a.data ++ delivered asked
  :=
  List.flatMap_cons

theorem delivered_append (asked asked' : List Asked) :
  delivered (asked ++ asked') = delivered asked ++ delivered asked'
  :=
  List.flatMap_append

/-- Asks one operation after another. -/
def askAll (answer : Answering σ) (s : σ) : List StreamOp → List Asked × σ
  | [] => ([], s)
  | op :: ops =>
    (⟨op, (answer s op).1⟩ :: (askAll answer (answer s op).2 ops).1,
      (askAll answer (answer s op).2 ops).2)

theorem askAll_append (answer : Answering σ) (s : σ) (ops ops' : List StreamOp) :
  askAll answer s (ops ++ ops')
    = ((askAll answer s ops).1 ++ (askAll answer (askAll answer s ops).2 ops').1,
      (askAll answer (askAll answer s ops).2 ops').2)
  := by
  induction ops generalizing s with
  | nil => rfl
  | cons op ops ih => simp only [List.cons_append, askAll, ih]

/-! ### Feeds -/

/-- Whether the input that is left is as it was, or has been thrown away. -/
def LeftOrLost (left : σ → Bytes) (s t : σ) : Prop := left t = left s ∨ left t = []

/-- What a read with room comes upon, however much it asks for: a piece of the input, the end of
the input, a failure, or nothing yet. -/
inductive Meets (left : σ → Bytes) (s : σ) (answer : Nat → Option (Except IoError Bytes) × σ) :
    Prop where
  | piece (piece : Bytes) (after : Nat → σ) (hne : piece ≠ [])
    (hanswer : ∀ n, n ≠ 0 → answer n = (some (.ok (piece.take n)), after n))
    (hleft : ∀ n, n ≠ 0 → left s = piece.take n ++ left (after n))
    (hwhole : ∀ n, piece.length ≤ n → after n = after piece.length)
  | ended (after : σ) (hanswer : ∀ n, n ≠ 0 → answer n = (some (.ok []), after))
    (hnil : left s = []) (hleft : left after = [])
  | failed (e : IoError) (after : σ) (hanswer : ∀ n, n ≠ 0 → answer n = (some (.error e), after))
    (hleft : LeftOrLost left s after)
  | waiting (after : σ) (hanswer : ∀ n, n ≠ 0 → answer n = (none, after))
    (hleft : LeftOrLost left s after)

/-- What a read into an empty buffer comes upon: it is answered at once, or as a read for one byte
that gets none. -/
inductive MeetsEmpty (left : σ → Bytes) (s : σ)
    (answer : Nat → Option (Except IoError Bytes) × σ) : Prop where
  | asOne (hanswer : answer 0 = answer 1) (hnil : received (answer 1).1 = [])
  | atOnce (after : σ) (hanswer : answer 0 = (some (.ok []), after))
    (hleft : LeftOrLost left s after)

/-- A stream with its input. -/
structure Feed (σ : Type) where
  answer : Answering σ
  /-- The input that has not been read yet. -/
  left : σ → Bytes
  /-- Every read with room comes upon something. -/
  meets : ∀ s, Meets left s (answer.read s)
  /-- So does one into an empty buffer. -/
  meetsEmpty : ∀ s, MeetsEmpty left s (answer.read s)
  /-- Only reads take from the input. -/
  aside : ∀ s op, op.Aside → LeftOrLost left s (answer s op).2

namespace Feed

/-- A read takes what it receives from the input. -/
theorem left_read (F : Feed σ) (s : σ) {n : Nat} (hn : n ≠ 0) :
  ∃ rest, F.left s = received (F.answer.read s n).1 ++ rest
    ∧ (F.left (F.answer.read s n).2 = rest ∨ F.left (F.answer.read s n).2 = [])
  := by
  cases F.meets s with
  | piece piece after hne hanswer hleft =>
    rw [hanswer n hn]
    exact ⟨_, hleft n hn, .inl rfl⟩
  | ended after hanswer hnil hleft =>
    rw [hanswer n hn]
    exact ⟨[], hnil, .inl hleft⟩
  | failed e after hanswer hleft | waiting after hanswer hleft =>
    rw [hanswer n hn]
    exact ⟨_, rfl, hleft⟩

/-- An operation takes what it receives from the input. -/
theorem left_answer (F : Feed σ) (s : σ) {op : StreamOp} (h : op.Single) :
  ∃ rest, F.left s = Asked.data ⟨op, (F.answer s op).1⟩ ++ rest
    ∧ (F.left (F.answer s op).2 = rest ∨ F.left (F.answer s op).2 = [])
  := by
  rcases h.cases with ⟨n, rfl⟩ | h
  · by_cases hn : n = 0
    · subst hn
      have hread : F.answer s (.read 0) = F.answer.read s 0 := rfl
      rw [hread]
      cases F.meetsEmpty s with
      | asOne hanswer hnil =>
        rw [hanswer]
        exact F.left_read s Nat.one_ne_zero
      | atOnce after hanswer hleft =>
        rw [hanswer]
        exact ⟨_, rfl, hleft⟩
    · exact F.left_read s hn
  · rw [Asked.data_of_aside h]
    exact ⟨_, rfl, F.aside s op h⟩

/-- What has been received and what is left stand at the front of the input, one behind the
other. -/
theorem delivered_append_left_prefix (F : Feed σ) (s : σ) {ops : List StreamOp}
    (h : ∀ op ∈ ops, op.Single) :
  delivered (askAll F.answer s ops).1 ++ F.left (askAll F.answer s ops).2 <+: F.left s
  := by
  induction ops generalizing s with
  | nil => exact List.prefix_rfl
  | cons op ops ih =>
    rw [List.forall_mem_cons] at h
    obtain ⟨rest, hsplit, hrest⟩ := F.left_answer s h.1
    have hcut : F.left (F.answer s op).2 <+: rest := by
      rcases hrest with hrest | hrest
      · exact hrest ▸ List.prefix_rfl
      · exact hrest ▸ List.nil_prefix
    rw [askAll, delivered_cons, List.append_assoc, hsplit]
    exact (List.prefix_append_right_inj _).mpr ((ih _ h.2).trans hcut)

/-- Whether a read into an empty buffer finds out that there is no more input as any other does. -/
def Uniform (F : Feed σ) : Prop :=
  ∀ s, F.left s = [] → F.answer.read s 0 = F.answer.read s 1

/-- Whether no input is thrown away. -/
def Lossless (F : Feed σ) : Prop :=
  ∀ s op, op.Single →
    F.left s = Asked.data ⟨op, (F.answer s op).1⟩ ++ F.left (F.answer s op).2

end Feed

/-! ### Streams in memory -/

namespace MemoryStream

theorem unread_answer_of_aside (s : MemoryStream) {op : StreamOp} (h : op.Aside) :
  (s.answer op).2.unread = s.unread
  := by
  cases op with
  | read | drain => cases h
  | write | shutdown | cancelWrite => obtain ⟨_, _, _, _, _, _ | _ | _, _, _⟩ := s <;> rfl
  | _ => rfl

/-- A stream in memory, whose input is one piece. -/
def feed : Feed MemoryStream where
  answer s op := (some (s.answer op).1, (s.answer op).2)
  left := unread
  meets s := by
    cases h : s.readStopped with
    | some code =>
      refine .failed (stoppedError code) s ?_ (.inl rfl)
      intro n _
      show (some (s.read n).1, (s.read n).2) = _
      rw [read_of_stopped h]
    | none =>
      have hread : ∀ n, n ≠ 0 → (some (s.read n).1, (s.read n).2)
          = (some (.ok (s.unread.take n)), { s with unread := s.unread.drop n }) := by
        intro n _
        rw [read_of_not_stopped h]
      by_cases hnil : s.unread = []
      · simp only [hnil, List.take_nil, List.drop_nil] at hread
        exact .ended { s with unread := [] } hread hnil rfl
      · refine .piece s.unread (fun n => { s with unread := s.unread.drop n }) hnil hread ?_ ?_
        · intro n _
          exact (List.take_append_drop n s.unread).symm
        · intro n hn
          rw [List.drop_of_length_le hn, List.drop_length]
  meetsEmpty s := by
    cases h : s.readStopped with
    | some code =>
      have hread : ∀ n, s.read n = (.error (stoppedError code), s) := fun n => read_of_stopped h n
      apply MeetsEmpty.asOne
      · show (some (s.read 0).1, (s.read 0).2) = (some (s.read 1).1, (s.read 1).2)
        rw [hread, hread]
      · show received (some (s.read 1).1) = []
        rw [hread]
        rfl
    | none =>
      refine .atOnce s ?_ (.inl rfl)
      show (some (s.read 0).1, (s.read 0).2) = _
      rw [read_of_not_stopped h]
      rfl
  aside s op h := .inl (s.unread_answer_of_aside h)

theorem feed_uniform :
  feed.Uniform
  := by
  intro s hnil
  have hnil : s.unread = [] := hnil
  show (some (s.read 0).1, (s.read 0).2) = (some (s.read 1).1, (s.read 1).2)
  cases h : s.readStopped with
  | some code => rw [read_of_stopped h, read_of_stopped h]
  | none =>
    rw [read_of_not_stopped h, read_of_not_stopped h, hnil]
    rfl

theorem feed_lossless :
  feed.Lossless
  := by
  intro s op hop
  rcases hop.cases with ⟨n, rfl⟩ | haside
  · show s.unread = received (some (s.read n).1) ++ (s.read n).2.unread
    cases h : s.readStopped with
    | some code =>
      rw [read_of_stopped h]
      rfl
    | none =>
      rw [read_of_not_stopped h]
      exact (List.take_append_drop n s.unread).symm
  · rw [Asked.data_of_aside haside, List.nil_append]
    exact (s.unread_answer_of_aside haside).symm

end MemoryStream

/-- What comes next of paced input. -/
inductive Beat where
  | piece (data : {data : Bytes // data ≠ []})
  | pause
  | fault (e : IoError)

namespace Beat

def data : Beat → Bytes
  | .piece data => data
  | _ => []

/-- Reads paced input. A piece may be read in parts, and a pause or a fault is met once. -/
def read : List Beat → Nat → Option (Except IoError Bytes) × List Beat
  | [], _ => (some (.ok []), [])
  | .pause :: beats, _ => (none, beats)
  | .fault e :: beats, _ => (some (.error e), beats)
  | .piece data :: beats, n =>
    (some (.ok (data.1.take n)),
      if h : data.1.drop n = [] then beats else .piece ⟨data.1.drop n, h⟩ :: beats)

/-- How a stream in memory answers with paced input in place of its own. -/
def answer : Answering (MemoryStream × List Beat)
  | (s, beats), .read n => ((read beats n).1, (s, (read beats n).2))
  | (s, beats), op => (some (s.answer op).1, ((s.answer op).2, beats))

/-- What a read receives is taken from the input. -/
theorem flatMap_data_read (beats : List Beat) (n : Nat) :
  beats.flatMap data = received (read beats n).1 ++ (read beats n).2.flatMap data
  := by
  rcases beats with _ | ⟨⟨piece, hpiece⟩ | _ | e, beats⟩
  · rfl
  · have hsplit := List.take_append_drop n piece
    by_cases hrest : piece.drop n = []
    · rw [hrest, List.append_nil] at hsplit
      simp [read, data, hrest, hsplit]
    · simp [read, data, hrest, ← List.append_assoc, hsplit]
  · rfl
  · rfl

/-- A stream in memory with paced input. -/
def feed : Feed (MemoryStream × List Beat) where
  answer := answer
  left s := s.2.flatMap data
  meets := by
    rintro ⟨s, _ | ⟨⟨piece, hpiece⟩ | _ | e, beats⟩⟩
    · exact .ended (s, []) (fun _ _ => rfl) rfl rfl
    · refine .piece piece _ hpiece (fun n _ => rfl) (fun n _ => flatMap_data_read _ n) ?_
      intro n hn
      simp [read, List.drop_of_length_le hn]
    · exact .waiting (s, beats) (fun _ _ => rfl) (.inl rfl)
    · exact .failed e (s, beats) (fun _ _ => rfl) (.inl rfl)
  meetsEmpty := by
    rintro ⟨s, _ | ⟨⟨piece, hpiece⟩ | _ | e, beats⟩⟩
    · exact .asOne rfl rfl
    · refine .atOnce (s, .piece ⟨piece, hpiece⟩ :: beats) ?_ (.inl rfl)
      simp only [Answering.read, answer, read, List.take_zero, List.drop_zero, dif_neg hpiece]
      rfl
    · exact .asOne rfl rfl
    · exact .asOne rfl rfl
  aside := by
    rintro ⟨s, beats⟩ op h
    cases op with
    | read | drain => cases h
    | _ => exact .inl rfl

theorem feed_uniform :
  feed.Uniform
  := by
  rintro ⟨s, _ | ⟨⟨piece, hpiece⟩ | _ | e, beats⟩⟩ hnil
  · rfl
  · exact absurd (List.append_eq_nil_iff.mp hnil).1 hpiece
  · rfl
  · rfl

theorem feed_lossless :
  feed.Lossless
  := by
  rintro ⟨s, beats⟩ op hop
  rcases hop.cases with ⟨n, rfl⟩ | haside
  · exact flatMap_data_read beats n
  · rw [Asked.data_of_aside haside]
    cases op with
    | read | drain => cases haside
    | _ => rfl

end Beat

/-! ### Layers -/

/-- Runs a program until it is done, or until an operation waits. -/
def poll (answer : Answering σ) : Stream.Use α → σ → Option α × σ
  | .done a, s => (some a, s)
  | .panic _, s => (none, s)
  | .step op next, s =>
    match answer s op with
    | (none, s) => (none, s)
    | (some a, s) => poll answer (next a) s

/-- How a stream answers under a layer.  While an operation waits, the layer is as it was. -/
def Answering.under (answer : Answering σ) : Answering (Layer × σ) :=
  fun (layer, s) op =>
    match poll answer (layer.on op) s with
    | (none, s) => (none, (layer, s))
    | (some (a, layer), s) => (some a, (layer, s))

namespace Layer

/-- How much a limit asks for below. -/
def inquiry (remaining n : Nat) : Nat :=
  if remaining = 0 then 1 else min n remaining

/-- What a limit makes of the answer from below. -/
def judge (limit remaining : Nat) : Except IoError Bytes → Except IoError Bytes
  | .ok (b :: data) => if remaining = 0 then .error (limitError limit) else .ok (b :: data)
  | answer => answer

@[simp]
theorem judge_error (limit remaining : Nat) (e : IoError) :
  judge limit remaining (.error e) = .error e
  :=
  rfl

@[simp]
theorem judge_nil (limit remaining : Nat) :
  judge limit remaining (.ok []) = .ok []
  :=
  rfl

theorem judge_of_ne_zero {remaining : Nat} (h : remaining ≠ 0) (limit : Nat)
    (answer : Except IoError Bytes) :
  judge limit remaining answer = answer
  := by
  rcases answer with e | _ | ⟨b, data⟩
  · rfl
  · rfl
  · rw [judge, if_neg h]

end Layer

namespace Answering

/-- A layer that asks one operation below and is done with its answer. -/
theorem under_of_step
    (answer : Answering σ) {layer : Layer} (s : σ) {op below : StreamOp}
    {next : below.Answer → Stream.Use (op.Answer × Layer)} (hon : layer.on op = .step below next)
    {f : below.Answer → op.Answer × Layer} (hnext : ∀ a, next a = .done (f a)) :
  answer.under (layer, s) op
    = ((answer s below).1.map fun a => (f a).1,
      (((answer s below).1.map fun a => (f a).2).getD layer, (answer s below).2))
  := by
  rw [funext hnext] at hon
  simp only [under, hon, poll]
  rcases answer s below with ⟨_ | a, t⟩ <;> rfl

/-- What passes a layer unseen is asked below. -/
theorem under_of_pass
    (answer : Answering σ) {layer : Layer} (s : σ) {op : StreamOp}
    (h : layer.on op = layer.pass op) :
  answer.under (layer, s) op = ((answer s op).1, (layer, (answer s op).2))
  := by
  rw [answer.under_of_step s h fun _ => rfl]
  rcases answer s op with ⟨_ | a, t⟩ <;> rfl

/-- A read through a limit is one read below. -/
theorem under_read_limited (answer : Answering σ) (limit remaining n : Nat) (s : σ) :
  answer.under.read (.limited limit remaining, s) n
    = ((answer.read s (Layer.inquiry remaining n)).1.map (Layer.judge limit remaining),
      (.limited limit (remaining
          - (received ((answer.read s (Layer.inquiry remaining n)).1.map
            (Layer.judge limit remaining))).length),
        (answer.read s (Layer.inquiry remaining n)).2))
  := by
  have hon : (Layer.limited limit remaining).on (.read n)
      = Layer.readLimited limit remaining n := rfl
  by_cases hzero : remaining = 0
  · subst hzero
    rw [Layer.readLimited, if_pos rfl, Layer.probe_bind] at hon
    have hunder := answer.under_of_step s hon
      (f := fun a => (Layer.judge limit 0 a, .limited limit 0)) (by
        rintro (e | _ | ⟨b, data⟩) <;> rfl)
    rw [Layer.inquiry, if_pos rfl, Nat.zero_sub]
    refine hunder.trans ?_
    unfold Answering.read
    rcases answer s (.read 1) with ⟨_ | a, t⟩ <;> rfl
  · rw [Layer.readLimited, if_neg hzero] at hon
    have hunder := answer.under_of_step s hon
      (f := fun a => (a, .limited limit (remaining - (received (some a)).length))) (by
        rintro (e | data) <;> rfl)
    rw [Layer.inquiry, if_neg hzero, funext (Layer.judge_of_ne_zero hzero limit), Option.map_id']
    refine hunder.trans ?_
    unfold Answering.read
    rcases answer s (.read (min n remaining)) with ⟨_ | a, t⟩ <;> rfl

/-- A read through a tee is the same read below. -/
theorem under_read_tee (answer : Answering σ) (kept written : Bytes) (n : Nat) (s : σ) :
  answer.under.read (.tee kept written, s) n
    = ((answer.read s n).1,
      (.tee (kept ++ received (answer.read s n).1) written, (answer.read s n).2))
  := by
  have hon : (Layer.tee kept written).on (.read n) = readUnder (.tee kept written) n := rfl
  rw [readUnder_tee] at hon
  have hunder := answer.under_of_step s hon
    (f := fun a => (a, .tee (kept ++ received (some a)) written)) (by
      rintro (e | data)
      · rw [received_error, List.append_nil]
        rfl
      · rfl)
  refine hunder.trans ?_
  unfold Answering.read
  rcases answer s (.read n) with ⟨_ | a, t⟩
  · have hnil : kept = kept ++ received none := (List.append_nil kept).symm
    exact congrArg (fun r => (none, (Layer.tee r written, t))) hnil
  · rfl

/-- What leaves the input alone goes through a limit unseen. -/
theorem under_limited_of_aside
    (answer : Answering σ) (limit remaining : Nat) (s : σ) {op : StreamOp} (h : op.Aside) :
  answer.under (.limited limit remaining, s) op
    = ((answer s op).1, (.limited limit remaining, (answer s op).2))
  := by
  apply under_of_pass
  cases op with
  | read | drain => cases h
  | _ => rfl

/-- What leaves the input alone does below what it does without a tee. -/
theorem under_tee_of_aside
    (answer : Answering σ) (kept written : Bytes) (s : σ) {op : StreamOp} (h : op.Aside) :
  ∃ written', (answer.under (.tee kept written, s) op).2
    = (.tee kept written', (answer s op).2)
  := by
  cases op with
  | read | drain => cases h
  | write data =>
    have hon : (Layer.tee kept written).on (.write data) = .step (.write data) _ := rfl
    have hunder := answer.under_of_step s hon
      (f := fun a => (a, .tee kept (written ++ data.take ((Except.toOption a).getD 0)))) (by
        rintro (e | taken)
        · simp [Except.toOption]
        · rfl)
    rw [hunder]
    rcases answer s (.write data) with ⟨_ | a, t⟩
    · exact ⟨written, rfl⟩
    · exact ⟨_, rfl⟩
  | _ => exact ⟨written, by rw [under_of_pass _ _ rfl]⟩

end Answering

/-- What a layer lets through of an input. -/
def Layer.window : Layer → Bytes → Bytes
  | .limited _ remaining, data => data.take remaining
  | .tee _ _, data => data

/-- What a layer lets through of input that is left or lost. -/
theorem LeftOrLost.window
    {left : σ → Bytes} {s t : σ} (h : LeftOrLost left s t) {layer layer' : Layer}
    (hwindow : layer'.window = layer.window) :
  LeftOrLost (fun s : Layer × σ => s.1.window (left s.2)) (layer, s) (layer', t)
  := by
  rcases h with h | h
  · left
    show layer'.window (left t) = layer.window (left s)
    rw [hwindow, h]
  · right
    show layer'.window (left t) = []
    rw [h]
    cases layer' with
    | limited limit remaining => exact List.take_nil
    | tee read written => rfl

namespace Feed

/-- Nothing is received behind the last byte that is allowed. -/
theorem received_judge_zero (limit : Nat) (answer : Option (Except IoError Bytes)) :
  received (answer.map (Layer.judge limit 0)) = []
  := by
  rcases answer with _ | e | _ | ⟨b, data⟩ <;> rfl

theorem meets_limited (F : Feed σ) (limit remaining : Nat) (s : σ) :
  Meets (fun (s : Layer × σ) => s.1.window (F.left s.2)) (.limited limit remaining, s)
    (F.answer.under.read (.limited limit remaining, s))
  := by
  have hunder := fun n (_ : n ≠ 0) => F.answer.under_read_limited limit remaining n s
  have hinquiry : ∀ n, n ≠ 0 → Layer.inquiry remaining n ≠ 0 := by
    intro n hn
    rw [Layer.inquiry]
    split
    · exact Nat.one_ne_zero
    · omega
  cases F.meets s with
  | piece piece after hne hanswer hleft hwhole =>
    by_cases hzero : remaining = 0
    · -- The byte that is taken to see that there is one too many is not let through.
      subst hzero
      obtain ⟨b, rest, rfl⟩ := List.exists_cons_of_ne_nil hne
      have hone : ∀ n, Layer.inquiry 0 n = 1 := fun _ => rfl
      simp only [hone, hanswer 1 Nat.one_ne_zero] at hunder
      refine .failed (Layer.limitError limit) _ hunder ?_
      left
      simp only [Layer.window, Nat.zero_sub, List.take_zero]
    · have hmin : ∀ n, Layer.inquiry remaining n = min n remaining := fun _ => if_neg hzero
      have hlength : ∀ n, (piece.take (min n remaining)).length ≤ remaining := by
        intro n
        rw [List.length_take]
        omega
      have hpiece : ∀ n, n ≠ 0 →
          F.answer.under.read (.limited limit remaining, s) n
            = (some (.ok ((piece.take remaining).take n)),
              (.limited limit (remaining - ((piece.take remaining).take n).length),
                after (min n remaining))) := by
        intro n hn
        rw [hunder n hn, hmin, hanswer _ (hmin n ▸ hinquiry n hn), Option.map_some,
          Layer.judge_of_ne_zero hzero, received_ok, List.take_take]
      refine .piece (piece.take remaining) _ ?_ hpiece ?_ ?_
      · simp [hne, hzero]
      · intro n hn
        simp only [Layer.window, List.take_take]
        rw [hleft _ (hmin n ▸ hinquiry n hn), List.take_append, List.take_of_length_le (hlength n)]
      · intro n hn
        by_cases hle : piece.length ≤ remaining
        · rw [List.take_of_length_le hle] at hn ⊢
          rw [Nat.min_eq_left hle, List.take_length, List.take_of_length_le hn,
            hwhole _ (Nat.le_min.mpr ⟨hn, hle⟩)]
        · have htake : (piece.take remaining).length = remaining :=
            List.length_take_of_le (Nat.le_of_not_le hle)
          rw [htake] at hn ⊢
          simp only [List.take_take, Nat.min_eq_right hn, Nat.min_self]
  | ended after hanswer hnil hleft =>
    refine .ended (.limited limit remaining, after) ?_ ?_ ?_
    · intro n hn
      rw [hunder n hn, hanswer _ (hinquiry n hn)]
      rfl
    · rw [Layer.window, hnil, List.take_nil]
    · rw [Layer.window, hleft, List.take_nil]
  | failed e after hanswer hleft =>
    refine .failed e (.limited limit remaining, after) ?_ (hleft.window rfl)
    intro n hn
    rw [hunder n hn, hanswer _ (hinquiry n hn)]
    rfl
  | waiting after hanswer hleft =>
    refine .waiting (.limited limit remaining, after) ?_ (hleft.window rfl)
    intro n hn
    rw [hunder n hn, hanswer _ (hinquiry n hn)]
    rfl

theorem meetsEmpty_limited (F : Feed σ) (limit remaining : Nat) (s : σ) :
  MeetsEmpty (fun (s : Layer × σ) => s.1.window (F.left s.2)) (.limited limit remaining, s)
    (F.answer.under.read (.limited limit remaining, s))
  := by
  have hunder := fun n => F.answer.under_read_limited limit remaining n s
  by_cases hzero : remaining = 0
  · subst hzero
    apply MeetsEmpty.asOne
    · rw [hunder, hunder]
      rfl
    · rw [hunder, received_judge_zero]
  · have hempty : Layer.inquiry remaining 0 = 0 := by
      rw [Layer.inquiry, if_neg hzero, Nat.zero_min]
    have hone : Layer.inquiry remaining 1 = 1 := by
      rw [Layer.inquiry, if_neg hzero, Nat.min_eq_left (Nat.pos_of_ne_zero hzero)]
    cases F.meetsEmpty s with
    | asOne hanswer hnil =>
      apply MeetsEmpty.asOne
      · rw [hunder, hunder, hempty, hone, hanswer]
      · rw [hunder, hone, funext (Layer.judge_of_ne_zero hzero limit), Option.map_id']
        exact hnil
    | atOnce after hanswer hleft =>
      refine .atOnce (.limited limit remaining, after) ?_ (hleft.window rfl)
      rw [hunder, hempty, hanswer]
      rfl

theorem meets_tee (F : Feed σ) (kept written : Bytes) (s : σ) :
  Meets (fun (s : Layer × σ) => s.1.window (F.left s.2)) (.tee kept written, s)
    (F.answer.under.read (.tee kept written, s))
  := by
  have hunder := fun n (_ : n ≠ 0) => F.answer.under_read_tee kept written n s
  cases F.meets s with
  | piece piece after hne hanswer hleft hwhole =>
    refine .piece piece (fun n => (.tee (kept ++ piece.take n) written, after n)) hne ?_ hleft ?_
    · intro n hn
      rw [hunder n hn, hanswer n hn]
      rfl
    · intro n hn
      rw [hwhole n hn, List.take_of_length_le hn, List.take_length]
  | ended after hanswer hnil hleft =>
    refine .ended (.tee (kept ++ []) written, after) ?_ hnil hleft
    intro n hn
    rw [hunder n hn, hanswer n hn]
    rfl
  | failed e after hanswer hleft =>
    refine .failed e (.tee (kept ++ []) written, after) ?_ (hleft.window rfl)
    intro n hn
    rw [hunder n hn, hanswer n hn]
    rfl
  | waiting after hanswer hleft =>
    refine .waiting (.tee (kept ++ []) written, after) ?_ (hleft.window rfl)
    intro n hn
    rw [hunder n hn, hanswer n hn]
    rfl

theorem meetsEmpty_tee (F : Feed σ) (kept written : Bytes) (s : σ) :
  MeetsEmpty (fun (s : Layer × σ) => s.1.window (F.left s.2)) (.tee kept written, s)
    (F.answer.under.read (.tee kept written, s))
  := by
  have hunder := fun n => F.answer.under_read_tee kept written n s
  cases F.meetsEmpty s with
  | asOne hanswer hnil =>
    apply MeetsEmpty.asOne
    · rw [hunder, hunder, hanswer]
    · rw [hunder]
      exact hnil
  | atOnce after hanswer hleft =>
    refine .atOnce (.tee (kept ++ []) written, after) ?_ (hleft.window rfl)
    rw [hunder, hanswer]
    rfl

/-- A feed under a layer. -/
def under (F : Feed σ) : Feed (Layer × σ) where
  answer := F.answer.under
  left s := s.1.window (F.left s.2)
  meets := by
    rintro ⟨layer, s⟩
    cases layer with
    | limited limit remaining => exact F.meets_limited limit remaining s
    | tee kept written => exact F.meets_tee kept written s
  meetsEmpty := by
    rintro ⟨layer, s⟩
    cases layer with
    | limited limit remaining => exact F.meetsEmpty_limited limit remaining s
    | tee kept written => exact F.meetsEmpty_tee kept written s
  aside := by
    rintro ⟨layer, s⟩ op h
    cases layer with
    | limited limit remaining =>
      rw [F.answer.under_limited_of_aside limit remaining s h]
      exact (F.aside s op h).window rfl
    | tee kept written =>
      obtain ⟨written', hunder⟩ := F.answer.under_tee_of_aside kept written s h
      rw [hunder]
      exact (F.aside s op h).window rfl

theorem under_read (F : Feed σ) (limit remaining n : Nat) (s : σ) :
  F.under.answer (.limited limit remaining, s) (.read n)
    = ((F.answer.read s (Layer.inquiry remaining n)).1.map (Layer.judge limit remaining),
      (.limited limit (remaining
          - (received ((F.answer.read s (Layer.inquiry remaining n)).1.map
            (Layer.judge limit remaining))).length),
        (F.answer.read s (Layer.inquiry remaining n)).2))
  :=
  F.answer.under_read_limited limit remaining n s

theorem under_aside
    (F : Feed σ) (limit remaining : Nat) (s : σ) {op : StreamOp} (h : op.Aside) :
  F.under.answer (.limited limit remaining, s) op
    = ((F.answer s op).1, (.limited limit remaining, (F.answer s op).2))
  :=
  F.answer.under_limited_of_aside limit remaining s h

end Feed

end StreamCall
