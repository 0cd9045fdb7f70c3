import StreamCall.Proofs.Stream.Feed

/-!
# Reading on behind a limit

Input in memory that is longer than a limit is refused, but every refusal uses up a byte of
the excess.  Who reads on after a refusal is refused once for every byte too many, and then finds
a clean end (`readEach_excess`).
-/

namespace StreamCall

/-- What reads of the given sizes get, one after the other. -/
def readEach {σ : Type} (answer : Answering σ) (s : σ) :
    List Nat → List (Option (Except IoError Bytes))
  | [] => []
  | n :: sizes => (answer.read s n).1 :: readEach answer (answer.read s n).2 sizes

namespace MemoryStream

variable (limit : Nat)

/-! ### Single reads -/

theorem feed_read (s : MemoryStream) (n : Nat) :
  feed.answer.read s n = (some (s.read n).1, (s.read n).2)
  :=
  rfl

theorem under_read_of_stopped
    {s : MemoryStream} {code : Nat} (h : s.readStopped = some code) (remaining n : Nat) :
  feed.under.answer.read (.limited limit remaining, s) n
    = (some (.error (stoppedError code)), (.limited limit remaining, s))
  := by
  rw [Answering.read, Feed.under_read, feed_read, read_of_stopped h]
  rfl

/-- While something is allowed, a read takes it from the front of the input. -/
theorem under_read_of_ne_zero
    {s : MemoryStream} (h : s.readStopped = none) {remaining : Nat} (hzero : remaining ≠ 0)
    (n : Nat) :
  feed.under.answer.read (.limited limit remaining, s) n
    = (some (.ok (s.unread.take (min n remaining))),
      (.limited limit (remaining - (s.unread.take (min n remaining)).length),
        { s with unread := s.unread.drop (min n remaining) }))
  := by
  rw [Answering.read, Feed.under_read, Layer.inquiry, if_neg hzero, feed_read,
    read_of_not_stopped h]
  simp only [Option.map_some, Layer.judge_of_ne_zero hzero, received_ok]

/-- Once nothing more is allowed, a read is refused, and takes a byte, as long as there is one. -/
theorem under_read_zero {s : MemoryStream} (h : s.readStopped = none) (n : Nat) :
  feed.under.answer.read (.limited limit 0, s) n
    = (some (if s.unread = [] then .ok [] else .error (Layer.limitError limit)),
      (.limited limit 0, { s with unread := s.unread.drop 1 }))
  := by
  have hone : Layer.inquiry 0 n = 1 := rfl
  rw [Answering.read, Feed.under_read, hone, feed_read, read_of_not_stopped h]
  cases s.unread with
  | nil => rfl
  | cons b rest => rfl

/-! ### Reading on -/

theorem readEach_of_stopped
    {s : MemoryStream} {code : Nat} (h : s.readStopped = some code) (remaining : Nat)
    (sizes : List Nat) :
  readEach feed.under.answer (.limited limit remaining, s) sizes
    = List.replicate sizes.length (some (.error (stoppedError code)))
  := by
  induction sizes with
  | nil => rfl
  | cons n sizes ih =>
    rw [readEach, under_read_of_stopped limit h, ih]
    rfl

/-- Once nothing more is allowed, there is a refusal for every byte that is left. -/
theorem readEach_zero {s : MemoryStream} (h : s.readStopped = none) (sizes : List Nat) :
  readEach feed.under.answer (.limited limit 0, s) sizes
    = List.replicate (min sizes.length s.unread.length) (some (.error (Layer.limitError limit)))
      ++ List.replicate (sizes.length - s.unread.length) (some (.ok []))
  := by
  induction sizes generalizing s with
  | nil => simp [readEach]
  | cons n sizes ih =>
    rw [readEach, under_read_zero limit h, ih (s := { s with unread := s.unread.drop 1 }) h]
    cases s.unread with
    | nil => simp [List.replicate_succ]
    | cons b rest => simp [List.replicate_succ, Nat.succ_min_succ]

/-- The answers to reads that get pieces of the input first, then refusals, and then the end. -/
def excessAnswers (pieces : List Bytes) (refusals ends : Nat) :
    List (Option (Except IoError Bytes)) :=
  pieces.map (fun piece => some (.ok piece))
    ++ (List.replicate refusals (some (.error (Layer.limitError limit)))
      ++ List.replicate ends (some (.ok [])))

/-- How an input fares of which only so much is allowed.  The pieces make up what is allowed
before the first refusal, and there are refusals for all of the excess before the end. -/
structure Fares (allowed : Nat) (input : Bytes) (pieces : List Bytes) (refusals ends : Nat) :
    Prop where
  piece_ne_nil : ∀ piece ∈ pieces, piece ≠ []
  pieces_prefix : pieces.flatten <+: input.take allowed
  pieces_eq : 0 < refusals → pieces.flatten = input.take allowed
  refusals_le : refusals ≤ input.length - allowed
  refusals_eq : 0 < ends → refusals = input.length - allowed

theorem Fares.nil (input : Bytes) {refusals ends : Nat} (hle : refusals ≤ input.length)
    (heq : 0 < ends → refusals = input.length) :
  Fares 0 input [] refusals ends
  where
  piece_ne_nil _ h := nomatch h
  pieces_prefix := List.nil_prefix
  pieces_eq _ := rfl
  refusals_le := hle
  refusals_eq := heq

/-- One more piece in front. -/
theorem Fares.cons
    {allowed m : Nat} {input : Bytes} {pieces : List Bytes} {refusals ends : Nat}
    (hpos : 0 < m) (hm : m ≤ allowed) (hlt : allowed < input.length)
    (h : Fares (allowed - m) (input.drop m) pieces refusals ends) :
  Fares allowed input (input.take m :: pieces) refusals ends
  := by
  have hsplit : input.take allowed = input.take m ++ (input.drop m).take (allowed - m) := by
    rw [← List.take_add, Nat.add_sub_cancel' hm]
  have hlength : (input.drop m).length - (allowed - m) = input.length - allowed := by
    rw [List.length_drop]
    omega
  refine ⟨?_, ?_, ?_, ?_, ?_⟩
  · rw [List.forall_mem_cons]
    refine ⟨?_, h.piece_ne_nil⟩
    intro hnil
    rw [List.take_eq_nil_iff] at hnil
    rcases hnil with rfl | rfl
    · cases hpos
    · cases hlt
  · rw [List.flatten_cons, hsplit, List.prefix_append_right_inj]
    exact h.pieces_prefix
  · intro hrefusals
    rw [List.flatten_cons, hsplit, h.pieces_eq hrefusals]
  · rw [← hlength]
    exact h.refusals_le
  · rw [← hlength]
    exact h.refusals_eq

/-- Input beyond what is allowed is delivered as far as it is allowed, and then refused until it
has been used up. -/
theorem exists_fares
    {s : MemoryStream} (h : s.readStopped = none) {allowed : Nat}
    (hlt : allowed < s.unread.length) {sizes : List Nat} (hsizes : ∀ n ∈ sizes, 0 < n) :
  ∃ pieces refusals ends,
    readEach feed.under.answer (.limited limit allowed, s) sizes
      = excessAnswers limit pieces refusals ends
    ∧ Fares allowed s.unread pieces refusals ends
  := by
  induction sizes generalizing allowed s with
  | nil =>
    refine ⟨[], 0, 0, rfl, ?_, ?_, ?_, ?_, ?_⟩ <;> simp
  | cons n sizes ih =>
    by_cases hzero : allowed = 0
    · subst hzero
      exact ⟨[], _, _, readEach_zero limit h (n :: sizes),
        .nil s.unread (Nat.min_le_right _ _) (by omega)⟩
    · rw [List.forall_mem_cons] at hsizes
      have hpos : 0 < min n allowed := Nat.lt_min.mpr ⟨hsizes.1, Nat.pos_of_ne_zero hzero⟩
      have hm : min n allowed ≤ allowed := Nat.min_le_right n allowed
      rw [readEach, under_read_of_ne_zero limit h hzero]
      generalize min n allowed = m at hpos hm
      have hrest : allowed - m < (s.unread.drop m).length := by
        rw [List.length_drop]
        omega
      obtain ⟨pieces, refusals, ends, hread, hfares⟩ :=
        ih (s := { s with unread := s.unread.drop m }) h hrest hsizes.2
      refine ⟨s.unread.take m :: pieces, refusals, ends, ?_, hfares.cons hpos hm hlt⟩
      rw [List.length_take_of_le (by omega), hread]
      rfl

/-- Reads of input in memory that is longer than the limit, continued behind refusals, get what
is allowed, then one refusal for every byte too many, and then a clean end.  Once reading has been
stopped, they all fail. -/
theorem readEach_excess
    (s : MemoryStream) (hlt : limit < s.unread.length) {sizes : List Nat}
    (hsizes : ∀ n ∈ sizes, 0 < n) :
  (s.readStopped = none → ∃ pieces refusals ends,
    readEach feed.under.answer (.limit limit, s) sizes
      = excessAnswers limit pieces refusals ends
    ∧ Fares limit s.unread pieces refusals ends)
  ∧ ∀ code, s.readStopped = some code →
    readEach feed.under.answer (.limit limit, s) sizes
      = List.replicate sizes.length (some (.error (stoppedError code)))
  := by
  constructor
  · intro h
    exact exists_fares limit h hlt hsizes
  · intro code h
    exact readEach_of_stopped limit h limit sizes

/-- Two bytes of input. -/
def twoBytes : MemoryStream := .ofInput 0 default [0x61, 0x62]

theorem readEach_excess_twoBytes :
  ∃ pieces refusals ends,
    readEach feed.under.answer (.limit 1, twoBytes) [1, 1, 1]
      = excessAnswers 1 pieces refusals ends
    ∧ Fares 1 twoBytes.unread pieces refusals ends
  :=
  (readEach_excess 1 twoBytes (by decide) (by decide)).1 rfl

/-- A limit of one byte refuses the second of two bytes, and then reports a clean end. -/
theorem not_forall_readEach_ne_end :
  ¬∀ (s : MemoryStream) (limit : Nat) (sizes : List Nat), limit < s.unread.length →
    (∀ n ∈ sizes, 0 < n) →
    some (.ok []) ∉ readEach feed.under.answer (.limit limit, s) sizes
  := by
  intro h
  have hread : readEach feed.under.answer (.limit 1, twoBytes) [1, 1, 1]
      = [some (.ok [0x61]), some (.error (Layer.limitError 1)), some (.ok [])] := rfl
  have hend := h twoBytes 1 [1, 1, 1] (by decide) (by decide)
  rw [hread] at hend
  exact hend (by simp)

end MemoryStream

end StreamCall
