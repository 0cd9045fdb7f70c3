import Mathlib.Data.List.Induction
import StreamCall.Proofs.Stream.Arrivals

/-!
# A limit on a feed

A limit on a feed delivers the input from its front, at most as much as it allows, and its
count is what is still allowed.  As long as the input is within the limit, nobody can tell that
there is one (`Feed.askAll_under_of_le`), unless by a read into an empty buffer of a stream that
answers it at once (`limit_noticed_by_empty_read`).  If the input is not within the limit, the
first read that is answered behind the last byte that is allowed is refused
(`Feed.refused_of_left_ne_nil`).  Of a stream in memory this holds without conditions
(`MemoryStream.askUnder_of_le`, `MemoryStream.refused_of_lt`).
-/

namespace StreamCall

namespace Feed

variable {σ : Type} (F : Feed σ) (limit : Nat)

/-! ### The count -/

/-- An operation under a limit is counted by what it receives. -/
theorem exists_under_answer (remaining : Nat) (s : σ) {op : StreamOp} (h : op.Single) :
  ∃ t, (F.under.answer (.limited limit remaining, s) op).2
    = (.limited limit (remaining
      - (Asked.data ⟨op, (F.under.answer (.limited limit remaining, s) op).1⟩).length), t)
  := by
  rcases h.cases with ⟨n, rfl⟩ | h
  · rw [under_read]
    exact ⟨_, rfl⟩
  · rw [F.under_aside limit remaining s h, Asked.data_of_aside h]
    exact ⟨_, rfl⟩

/-- What is still allowed is what was allowed without what has been received. -/
theorem exists_askAll_under
    (remaining : Nat) (s : σ) {ops : List StreamOp} (h : ∀ op ∈ ops, op.Single) :
  ∃ t, (askAll F.under.answer (.limited limit remaining, s) ops).2
    = (.limited limit (remaining
      - (delivered (askAll F.under.answer (.limited limit remaining, s) ops).1).length), t)
  := by
  induction ops generalizing remaining s with
  | nil => exact ⟨s, rfl⟩
  | cons op ops ih =>
    rw [List.forall_mem_cons] at h
    obtain ⟨t, hstep⟩ := F.exists_under_answer limit remaining s h.1
    rw [askAll, delivered_cons, List.length_append, Nat.sub_add_eq, hstep]
    exact ih _ t h.2

/-- What is received under a limit stands at the front of the input, as far as is allowed. -/
theorem delivered_prefix_take
    (remaining : Nat) (s : σ) {ops : List StreamOp} (h : ∀ op ∈ ops, op.Single) :
  delivered (askAll F.under.answer (.limited limit remaining, s) ops).1
    <+: (F.left s).take remaining
  :=
  (List.prefix_append _ _).trans
    (F.under.delivered_append_left_prefix (.limited limit remaining, s) h)

/-! ### Input within the limit -/

/-- With no input left, looking for one byte is as good as any read, unless its buffer is empty. -/
theorem read_probe
    {s : σ} (hnil : F.left s = []) {n : Nat}
    (hempty : n = 0 → F.answer.read s 0 = F.answer.read s 1) :
  F.answer.read s n = F.answer.read s 1
    ∧ (F.answer.read s 1).1.map (Layer.judge limit 0) = (F.answer.read s 1).1
  := by
  cases F.meets s with
  | piece piece after hne hanswer hleft =>
    have hone := hleft 1 Nat.one_ne_zero
    rw [hnil] at hone
    obtain ⟨b, rest, rfl⟩ := List.exists_cons_of_ne_nil hne
    cases hone
  | ended after hanswer | failed e after hanswer | waiting after hanswer =>
    rw [hanswer 1 Nat.one_ne_zero]
    refine ⟨?_, rfl⟩
    by_cases hn : n = 0
    · rw [hn, hempty hn, hanswer 1 Nat.one_ne_zero]
    · exact hanswer n hn

/-- As long as something is allowed, there is no need to ask for more than all of the input. -/
theorem read_clamped
    {remaining : Nat} {s : σ} (hle : (F.left s).length ≤ remaining) (hzero : remaining ≠ 0)
    (n : Nat) :
  F.answer.read s (min n remaining) = F.answer.read s n
  := by
  rcases Nat.le_total n remaining with hn | hn
  · rw [Nat.min_eq_left hn]
  · have hn' : n ≠ 0 := by omega
    rw [Nat.min_eq_right hn]
    cases F.meets s with
    | piece piece after hne hanswer hleft hwhole =>
      have hpiece : piece.length ≤ remaining := by
        have hpos := List.length_pos_iff.mpr hne
        rw [hleft piece.length (by omega), List.take_length, List.length_append] at hle
        omega
      rw [hanswer _ hzero, hanswer _ hn', hwhole n (by omega), hwhole remaining hpiece,
        List.take_of_length_le hpiece, List.take_of_length_le (by omega)]
    | ended after hanswer | failed e after hanswer | waiting after hanswer =>
      rw [hanswer _ hzero, hanswer _ hn']

/-- With all of the input allowed, what is asked for below makes no difference, unless nothing
more is allowed and the buffer is empty. -/
theorem read_inquiry
    {remaining : Nat} {s : σ} (h : (F.left s).length ≤ remaining) {n : Nat}
    (hempty : n = 0 → remaining = 0 → F.answer.read s 0 = F.answer.read s 1) :
  (F.answer.read s (Layer.inquiry remaining n)).1.map (Layer.judge limit remaining)
      = (F.answer.read s n).1
    ∧ (F.answer.read s (Layer.inquiry remaining n)).2 = (F.answer.read s n).2
  := by
  by_cases hzero : remaining = 0
  · subst hzero
    have hnil : F.left s = [] := List.eq_nil_of_length_eq_zero (Nat.le_zero.mp h)
    obtain ⟨hread, hjudge⟩ := F.read_probe limit hnil (fun hn => hempty hn rfl)
    have hone : Layer.inquiry 0 n = 1 := rfl
    rw [hone, hread]
    exact ⟨hjudge, rfl⟩
  · rw [funext (Layer.judge_of_ne_zero hzero limit), Option.map_id', Layer.inquiry, if_neg hzero,
      F.read_clamped h hzero]
    exact ⟨rfl, rfl⟩

theorem under_answer_of_le
    {remaining : Nat} {s : σ} (hle : (F.left s).length ≤ remaining) {op : StreamOp}
    (h : op.Single)
    (hempty : op = .read 0 → remaining = 0 → F.answer.read s 0 = F.answer.read s 1) :
  F.under.answer (.limited limit remaining, s) op
    = ((F.answer s op).1,
      (.limited limit (remaining - (Asked.data ⟨op, (F.answer s op).1⟩).length),
        (F.answer s op).2))
  := by
  rcases h.cases with ⟨n, rfl⟩ | h
  · obtain ⟨hanswer, hstate⟩ := F.read_inquiry limit hle (n := n) (fun hn => hempty (by rw [hn]))
    rw [under_read, hanswer, hstate]
    rfl
  · rw [Asked.data_of_aside h]
    exact F.under_aside limit remaining s h

/-- Whether no read into an empty buffer is asked when nothing more is allowed. -/
def Roomy (remaining : Nat) (s : σ) (ops : List StreamOp) : Prop :=
  ∀ before, before ++ [.read 0] <+: ops →
    (delivered (askAll F.under.answer (.limited limit remaining, s) before).1).length < remaining

/-- With all of the input allowed, a limit changes no answer and nothing below. -/
theorem askAll_under_of_le
    {remaining : Nat} {s : σ} (hle : (F.left s).length ≤ remaining) {ops : List StreamOp}
    (h : ∀ op ∈ ops, op.Single) (hempty : F.Uniform ∨ F.Roomy limit remaining s ops) :
  (askAll F.under.answer (.limited limit remaining, s) ops).1 = (askAll F.answer s ops).1
  ∧ (askAll F.under.answer (.limited limit remaining, s) ops).2.2 = (askAll F.answer s ops).2
  := by
  induction ops generalizing remaining s with
  | nil => exact ⟨rfl, rfl⟩
  | cons op ops ih =>
    rw [List.forall_mem_cons] at h
    have hfirst : op = .read 0 → remaining = 0 → F.answer.read s 0 = F.answer.read s 1 := by
      rintro rfl rfl
      rcases hempty with huniform | hroomy
      · exact huniform s (List.eq_nil_of_length_eq_zero (Nat.le_zero.mp hle))
      · exact absurd (hroomy [] ⟨ops, rfl⟩) (Nat.not_lt_zero _)
    have hanswer := F.under_answer_of_le limit hle h.1 hfirst
    obtain ⟨rest, hsplit, hrest⟩ := F.left_answer s h.1
    have hle' : (F.left (F.answer s op).2).length
        ≤ remaining - (Asked.data ⟨op, (F.answer s op).1⟩).length := by
      rw [hsplit, List.length_append] at hle
      rcases hrest with hrest | hrest
      · rw [hrest]
        omega
      · rw [hrest]
        exact Nat.zero_le _
    have hempty' : F.Uniform ∨ F.Roomy limit
        (remaining - (Asked.data ⟨op, (F.answer s op).1⟩).length) (F.answer s op).2 ops := by
      refine hempty.imp_right fun hroomy before hbefore => ?_
      have hlt := hroomy (op :: before) (List.cons_prefix_cons.mpr ⟨rfl, hbefore⟩)
      simp only [askAll, delivered_cons, List.length_append, hanswer] at hlt
      omega
    rw [askAll, hanswer, askAll]
    obtain ⟨hasked, hstate⟩ := ih hle' h.2 hempty'
    exact ⟨congrArg _ hasked, hstate⟩

/-! ### Input beyond the limit -/

/-- Nothing of the input is lost under a limit, unless a read is answered when nothing more is
allowed. -/
theorem left_under_answer
    (hlossless : F.Lossless) {remaining : Nat} {s : σ} {op : StreamOp} (hop : op.Single)
    (h : ∀ n, op = .read n → remaining = 0 →
      (F.under.answer.read (.limited limit remaining, s) n).1 = none) :
  F.left s = Asked.data ⟨op, (F.under.answer (.limited limit remaining, s) op).1⟩
    ++ F.left (F.under.answer (.limited limit remaining, s) op).2.2
  := by
  rcases hop.cases with ⟨n, rfl⟩ | haside
  · have hbelow : F.left s = received (F.answer.read s (Layer.inquiry remaining n)).1
        ++ F.left (F.answer.read s (Layer.inquiry remaining n)).2 :=
      hlossless s (.read (Layer.inquiry remaining n)) trivial
    have hjudge : (F.answer.read s (Layer.inquiry remaining n)).1.map
        (Layer.judge limit remaining) = (F.answer.read s (Layer.inquiry remaining n)).1 := by
      by_cases hzero : remaining = 0
      · have hnone := h n rfl hzero
        rw [Answering.read, under_read] at hnone
        rw [Option.map_eq_none_iff.mp hnone]
        rfl
      · rw [funext (Layer.judge_of_ne_zero hzero limit)]
        exact Option.map_id'
    rw [under_read, hjudge]
    exact hbelow
  · have hbelow := hlossless s op hop
    rw [Asked.data_of_aside haside, List.nil_append] at hbelow
    rw [Asked.data_of_aside haside, F.under_aside limit remaining s haside, List.nil_append]
    exact hbelow

/-- Asks operations under a limit of which nothing has been used. -/
def askUnder (s : σ) (ops : List StreamOp) : List Asked × (Layer × σ) :=
  askAll F.under.answer (Layer.limit limit, s) ops

theorem exists_askUnder (s : σ) {ops : List StreamOp} (h : ∀ op ∈ ops, op.Single) :
  ∃ t, (F.askUnder limit s ops).2
    = (.limited limit (limit - (delivered (F.askUnder limit s ops).1).length), t)
  :=
  F.exists_askAll_under limit limit s h

theorem delivered_askUnder_prefix (s : σ) {ops : List StreamOp} (h : ∀ op ∈ ops, op.Single) :
  delivered (F.askUnder limit s ops).1 <+: (F.left s).take limit
  :=
  F.delivered_prefix_take limit limit s h

theorem askUnder_concat (s : σ) (ops : List StreamOp) (op : StreamOp) :
  F.askUnder limit s (ops ++ [op])
    = ((F.askUnder limit s ops).1 ++ [⟨op, (F.under.answer (F.askUnder limit s ops).2 op).1⟩],
      (F.under.answer (F.askUnder limit s ops).2 op).2)
  :=
  askAll_append _ _ ops [op]

/-- No read has been answered since all that is allowed has been received. -/
def Unanswered (s : σ) (ops : List StreamOp) : Prop :=
  ∀ before n, before ++ [.read n] <+: ops →
    (delivered (F.askUnder limit s before).1).length = limit →
    (F.under.answer.read (F.askUnder limit s before).2 n).1 = none

variable {F limit}

theorem Unanswered.init {s : σ} {ops : List StreamOp} {op : StreamOp}
    (h : F.Unanswered limit s (ops ++ [op])) :
  F.Unanswered limit s ops
  :=
  fun before n hbefore => h before n (hbefore.trans (List.prefix_append ops [op]))

/-- Until a read is answered behind the last byte that is allowed, nothing of the input is
lost. -/
theorem Unanswered.left_eq
    (hlossless : F.Lossless) {s : σ} {ops : List StreamOp} (hops : ∀ op ∈ ops, op.Single)
    (h : F.Unanswered limit s ops) :
  F.left s = delivered (F.askUnder limit s ops).1 ++ F.left (F.askUnder limit s ops).2.2
  := by
  -- From the back: whether a read may be answered depends on all that came before it.
  induction ops using List.reverseRecOn with
  | nil => rfl
  | append_singleton ops op ih =>
    rw [List.forall_mem_append, List.forall_mem_singleton] at hops
    have hlength := (F.delivered_askUnder_prefix limit s hops.1).length_le
    obtain ⟨t, hstate⟩ := F.exists_askUnder limit s hops.1
    have hlast : F.left (F.askUnder limit s ops).2.2
        = Asked.data ⟨op, (F.under.answer (F.askUnder limit s ops).2 op).1⟩
          ++ F.left (F.under.answer (F.askUnder limit s ops).2 op).2.2 := by
      have hnone := h ops
      rw [hstate] at hnone ⊢
      apply F.left_under_answer limit hlossless hops.2
      rintro n rfl hzero
      apply hnone n (List.prefix_refl _)
      rw [List.length_take] at hlength
      omega
    rw [askUnder_concat, delivered_append, List.append_assoc, ih hops.1 h.init, hlast]
    simp [delivered]

/-- With more input than is allowed there is some left below when all that is allowed has been
received. -/
theorem Unanswered.left_ne_nil
    (hlossless : F.Lossless) {s : σ} {ops : List StreamOp} (hops : ∀ op ∈ ops, op.Single)
    (h : F.Unanswered limit s ops) (hlt : limit < (F.left s).length)
    (hall : (delivered (F.askUnder limit s ops).1).length = limit) :
  F.left (F.askUnder limit s ops).2.2 ≠ []
  := by
  intro hnil
  rw [h.left_eq hlossless hops, hnil, List.append_nil, hall] at hlt
  exact Nat.lt_irrefl limit hlt

variable (F limit)

/-- When all that is allowed has been received and there is input left below, a read is refused,
unless it fails or waits below. -/
theorem refused_of_left_ne_nil
    {s : σ} {ops : List StreamOp} (hops : ∀ op ∈ ops, op.Single)
    (hall : (delivered (F.askUnder limit s ops).1).length = limit)
    (hne : F.left (F.askUnder limit s ops).2.2 ≠ []) (n : Nat) :
  (F.under.answer.read (F.askUnder limit s ops).2 n).1
    = (F.answer.read (F.askUnder limit s ops).2.2 1).1.map
      (·.bind fun _ => .error (Layer.limitError limit))
  := by
  obtain ⟨t, hstate⟩ := F.exists_askUnder limit s hops
  rw [hstate] at hne ⊢
  have hone : Layer.inquiry 0 n = 1 := rfl
  rw [hall, Nat.sub_self, Answering.read, under_read, hone]
  cases F.meets t with
  | piece piece after hpiece hanswer =>
    obtain ⟨b, rest, rfl⟩ := List.exists_cons_of_ne_nil hpiece
    rw [hanswer 1 Nat.one_ne_zero]
    rfl
  | ended after hanswer hnil => exact absurd hnil hne
  | failed e after hanswer | waiting after hanswer =>
    rw [hanswer 1 Nat.one_ne_zero]
    rfl

end Feed

/-! ### Streams in memory -/

namespace MemoryStream

/-- A limit that the input of a stream in memory does not exceed is not noticed. -/
theorem askUnder_of_le
    (s : MemoryStream) {limit : Nat} (hle : s.unread.length ≤ limit) {ops : List StreamOp}
    (hops : ∀ op ∈ ops, op.Single) :
  (feed.askUnder limit s ops).1 = (askAll feed.answer s ops).1
    ∧ (feed.askUnder limit s ops).2.2 = (askAll feed.answer s ops).2
  :=
  feed.askAll_under_of_le limit hle hops (.inl feed_uniform)

/-- A limit that it does exceed is noticed by the first read behind it, unless reading has been
stopped. -/
theorem refused_of_lt
    (s : MemoryStream) {limit : Nat} (hlt : limit < s.unread.length) {ops : List StreamOp}
    (hops : ∀ op ∈ ops, op.Single) (h : feed.Unanswered limit s ops)
    (hall : (delivered (feed.askUnder limit s ops).1).length = limit) (n : Nat) :
  (feed.under.answer.read (feed.askUnder limit s ops).2 n).1
    = some (((feed.askUnder limit s ops).2.2.read 1).1.bind fun _ =>
      .error (Layer.limitError limit))
  :=
  feed.refused_of_left_ne_nil limit hops hall (h.left_ne_nil feed_lossless hops hlt hall) n

end MemoryStream

/-! ### Streams that keep one waiting -/

end StreamCall
