import StreamCall.Proofs.Server.Layered
import StreamCall.Proofs.Stream.Stack

/-!
# What a tee keeps

A tee keeps exactly what passes, and changes nothing.  What it keeps is held against what `noting`
notes in its place, which is every operation on the stream below with its answer
(`through_tee`).  A stack without its tees does what it does with them
(`through_withoutTees`), and under any layers a stream in memory appends to its output just what it
accepts (`MemoryStream.run_noting`).
-/

namespace StreamCall

variable {α σ : Type}

open Program (Yields)

/-! ### Notes in place of a tee -/

/-- Does an operation, and notes it with its answer. -/
def noting (past : List Exchange) (op : StreamOp) : Stream.Use (op.Answer × List Exchange) :=
  .step op fun answer => .done (answer, past ++ [⟨op, answer⟩])

/-- A tee that had kept some bytes before some exchanges. -/
def Layer.teeAfter (read written : Bytes) (past : List Exchange) : Layer :=
  .tee (read ++ past.flatMap Exchange.read) (written ++ past.flatMap Exchange.accepted)

/-- One exchange more. -/
theorem Layer.teeAfter_append (read written : Bytes) (past : List Exchange) (e : Exchange) :
  Layer.tee (read ++ past.flatMap Exchange.read ++ e.read)
      (written ++ past.flatMap Exchange.accepted ++ e.accepted)
    = .teeAfter read written (past ++ [e])
  := by
  simp [teeAfter]

theorem onLayers_teeAfter
    (n : Nat) (read written : Bytes) (past : List Exchange) (below : List Layer) (op : StreamOp) :
  onLayers (n + 1) (.teeAfter read written past :: below) op
    = (onLayers n below op).bind fun r =>
      .done (r.1, .teeAfter read written (past ++ [⟨op, r.1⟩]) :: r.2)
  := by
  rw [onLayers_cons, Layer.teeAfter, tee_on, Program.through, Program.bind_assoc]
  simp only [Layer.teeAfter_append]
  rfl

theorem through_noting_step
    (meaning : σ → (op : StreamOp) → Stream.Use (op.Answer × σ)) (s : σ) (past : List Exchange)
    (op : StreamOp) (next : op.Answer → Stream.Use α) :
  Program.through meaning s (Program.through noting past (.step (S := Streaming) op next))
    = (meaning s op).bind fun r =>
      ((next r.1).through noting (past ++ [⟨op, r.1⟩])).through meaning r.2
  :=
  rfl

/-- A tee keeps what notes in its place tell of. -/
theorem through_tee
    (p : Stream.Use α) (n : Nat) (read written : Bytes) (past : List Exchange)
    (below : List Layer) :
  p.through (onLayers (n + 1)) (.teeAfter read written past :: below)
    = ((p.through noting past).through (onLayers n) below).bind fun r =>
      .done (r.1.1, .teeAfter read written r.1.2 :: r.2)
  := by
  induction p generalizing past below with
  | done a => rfl
  | panic q => rfl
  | step op next ih =>
    rw [through_noting_step, Program.through, onLayers_teeAfter, Program.bind_assoc,
      Program.bind_assoc]
    exact Program.bind_congr _ fun r => ih r.1 _ r.2

/-! ### A stack without its tees -/

/-- The layers of a stack but for the tees. -/
def withoutTees (layers : List Layer) : List Layer := layers.filter (·.limit?.isSome)

theorem limits_withoutTees (layers : List Layer) :
  limits (withoutTees layers) = (limits layers).filter Option.isSome
  := by
  rw [limits, limits, List.filter_map]
  rfl

/-- What a stack has done, with the tees taken from it. -/
def tapless {δ : Type} (r : δ × List Layer) : Stream.Use (δ × List Layer) :=
  .done (r.1, withoutTees r.2)

theorem through_withoutTees_of_onLayers
    {n : Nat}
    (h : ∀ layers op, layers.length = n → (onLayers n layers op).bind tapless
      = onLayers (withoutTees layers).length (withoutTees layers) op)
    (p : Stream.Use α) {layers : List Layer} (hlength : layers.length = n) :
  (p.through (onLayers n) layers).bind tapless
    = p.through (onLayers (withoutTees layers).length) (withoutTees layers)
  := by
  induction p generalizing layers with
  | done a => rfl
  | panic q => rfl
  | step op next ih =>
    rw [Program.through, Program.through, ← h layers op hlength, Program.bind_assoc,
      Program.bind_assoc]
    apply (yields_onLayers n layers op).bind_congr
    rintro ⟨answer, layers'⟩ hlimits
    have hlength' : (withoutTees layers').length = (withoutTees layers).length := by
      apply length_eq_of_limits_eq
      rw [limits_withoutTees, limits_withoutTees, hlimits]
    have hnext := ih answer ((length_eq_of_limits_eq hlimits).trans hlength)
    rw [hlength'] at hnext
    exact hnext

theorem onLayers_withoutTees (n : Nat) {layers : List Layer} (h : layers.length = n)
    (op : StreamOp) :
  (onLayers n layers op).bind tapless
    = onLayers (withoutTees layers).length (withoutTees layers) op
  := by
  induction n generalizing layers op with
  | zero =>
    obtain rfl := List.eq_nil_of_length_eq_zero h
    rfl
  | succ n ih =>
    cases layers with
    | nil => cases h
    | cons top below =>
      have hbelow : below.length = n := Nat.succ.inj h
      cases top with
      | tee read written =>
        rw [onLayers_cons, tee_on, Program.bind_assoc]
        apply Eq.trans _ (ih hbelow op)
        exact Program.bind_assoc _ _ _
      | limited limit remaining =>
        -- What a limit does is a program on the layers below it, of which there is one less.
        have hyields := yields_through_of_yields_onLayers (yields_onLayers n)
          ((Layer.limited limit remaining).yields_on op) below
        have hon := through_withoutTees_of_onLayers (fun layers op h => ih h op)
          ((Layer.limited limit remaining).on op) hbelow
        have hkept : withoutTees (.limited limit remaining :: below)
            = .limited limit remaining :: withoutTees below := rfl
        rw [hkept, List.length_cons, onLayers_cons, onLayers_cons, ← hon, Program.bind_assoc,
          Program.bind_assoc]
        apply hyields.bind_congr
        rintro ⟨⟨answer, top⟩, below'⟩ ⟨htop, -⟩
        have hset : top.limit?.isSome = true := by
          rw [htop]
          rfl
        exact congrArg (fun layers => Program.done (answer, layers))
          (List.filter_cons_of_pos hset)

/-- A stack does without its tees what it does with them. -/
theorem through_withoutTees (p : Stream.Use α) (layers : List Layer) :
  (p.through (onLayers layers.length) layers).bind tapless
    = p.through (onLayers (withoutTees layers).length) (withoutTees layers)
  :=
  through_withoutTees_of_onLayers (fun _ op h => onLayers_withoutTees layers.length h op) p rfl

/-! ### The output -/

/-- Only a write has bytes accepted. -/
theorem Exchange.accepted_of_quiet {op : StreamOp} (h : op.Quiet) (answer : op.Answer) :
  Exchange.accepted ⟨op, answer⟩ = []
  := by
  cases op with
  | write data => cases h
  | _ => rfl

namespace MemoryStream

theorem written_answer (s : MemoryStream) (op : StreamOp) :
  (s.answer op).2.written = s.written ++ Exchange.accepted ⟨op, (s.answer op).1⟩
  := by
  by_cases hquiet : op.Quiet
  · rw [Exchange.accepted_of_quiet hquiet, List.append_nil]
    have houtput := s.output_answer op
    rw [StreamOp.act_of_quiet hquiet] at houtput
    exact congrArg Prod.snd houtput
  · obtain ⟨_, _, _, _, _, _ | _ | _, _, _⟩ := s
    all_goals cases op <;> simp [StreamOp.Quiet] at hquiet <;>
      simp [answer, write, shutdown, cancelWrite, Exchange.accepted, Except.toOption]

/-- Under any layers just those bytes are appended to the output that are accepted. -/
theorem run_onLayers_written
    (s : MemoryStream) (n : Nat) (layers : List Layer) (op : StreamOp) :
  ∃ answer layers' t, s.run (onLayers n layers op) = (.done (answer, layers'), t)
    ∧ t.written = s.written ++ Exchange.accepted ⟨op, answer⟩
  := by
  by_cases hquiet : op.Quiet
  · obtain ⟨answer, layers', t, hrun, houtput⟩ := s.run_onLayers_output n layers op
    refine ⟨answer, layers', t, hrun, ?_⟩
    rw [StreamOp.act_of_quiet hquiet] at houtput
    rw [Exchange.accepted_of_quiet hquiet, List.append_nil]
    exact congrArg Prod.snd houtput
  · obtain ⟨layers', hrun⟩ := s.run_onLayers_of_not_quiet n layers hquiet
    exact ⟨_, layers', _, hrun, s.written_answer op⟩

/-- So it is in the course of a program that is noted. -/
theorem run_noting
    {p : Stream.Use α} (hp : p.Safe fun _ => True) (s : MemoryStream) (n : Nat)
    (past : List Exchange) (layers : List Layer) :
  ∃ a more layers' t,
    s.run ((p.through noting past).through (onLayers n) layers)
        = (.done ((a, past ++ more), layers'), t)
      ∧ t.written = s.written ++ more.flatMap Exchange.accepted
  := by
  induction p generalizing s past layers with
  | done a =>
    use a, [], layers, s
    rw [List.append_nil, List.flatMap_nil, List.append_nil]
    exact ⟨rfl, rfl⟩
  | panic q => cases hp
  | step op next ih =>
    obtain ⟨answer, layers', t, hop, hwritten⟩ := s.run_onLayers_written n layers op
    obtain ⟨a, more, layers'', t', hrun, hrest⟩ :=
      ih answer (hp.2 answer) t (past ++ [⟨op, answer⟩]) layers'
    refine ⟨a, ⟨op, answer⟩ :: more, layers'', t', ?_, ?_⟩
    · rw [through_noting_step, run_bind hop, hrun, List.append_assoc]
      rfl
    · rw [hrest, hwritten, List.append_assoc, List.flatMap_cons]

end MemoryStream

/-! ### A tee in a stack -/

/-- A program under the layers of a stack. The stack is left as it is when the program panics. -/
def stacked (layers : List Layer) (p : Stream.Use α) :
    Stream.Use (Except Payload α × List Layer) :=
  p.settle (onLayers layers.length) layers

theorem stacked_eq (layers : List Layer) (p : Stream.Use α) :
  stacked layers p = p.attempt.through (onLayers layers.length) layers
  :=
  p.settle_eq_through _ layers

theorem stacked_safe (layers : List Layer) (p : Stream.Use α) :
  (stacked layers p).Safe fun _ => True
  := by
  rw [stacked_eq]
  apply (Program.Safe.attempt p).through
  exact fun layers op h => onLayers_safe (fun _ => trivial) (fun _ => trivial) _ layers h

theorem yields_stacked (layers : List Layer) (p : Stream.Use α) :
  (stacked layers p).Yields fun r => limits r.2 = limits layers
  := by
  rw [stacked_eq]
  have hyields := yields_through_of_yields_onLayers (yields_onLayers layers.length)
    (.trivially p.attempt) layers
  exact hyields.mono fun _ h => h.2

/-- A tee keeps exactly what passes, and changes nothing.  Whatever is done to the top of a stack
of layers on a stream in memory, a tee of the stack keeps the bytes that the layers below it have
delivered and those that the stream has appended to its output, in their order; `past` are the
operations on the layers below, as they are noted in the place of the tee.  Without all its tees
the stack does the same, with the same result: what is left of the limits and the stream in the end
are the same. -/
theorem tee_keeps_what_passes
    (s : MemoryStream) (above below : List Layer) (read written : Bytes) (p : Stream.Use α) :
  ∃ result above' past below' t,
    limits above' = limits above ∧ limits below' = limits below
    ∧ s.run (stacked (above ++ .tee read written :: below) p)
      = (.done (result, above' ++ .tee (read ++ past.flatMap Exchange.read)
        (written ++ past.flatMap Exchange.accepted) :: below'), t)
    ∧ s.run (((stacked above p).through noting []).through (onLayers below.length) below)
      = (.done (((result, above'), past), below'), t)
    ∧ t.written = s.written ++ past.flatMap Exchange.accepted
    ∧ s.run (stacked (withoutTees (above ++ below)) p)
      = (.done (result, withoutTees (above' ++ below')), t)
  := by
  obtain ⟨⟨result, above'⟩, past, below', t, hrun, hwritten⟩ :=
    s.run_noting (stacked_safe above p) below.length [] below
  rw [List.nil_append] at hrun
  have hnoted := (yields_stacked above p).through (fun _ => True)
    (fun past op _ => .trivially (noting past op)) (s := []) trivial
  obtain ⟨⟨habove, -⟩, hbelow⟩ :=
    (yields_through_of_yields_onLayers (yields_onLayers below.length) hnoted below).of_run hrun
  have htee : s.run (stacked (above ++ .tee read written :: below) p)
      = (.done (result, above' ++ .teeAfter read written past :: below'), t) := by
    have hfresh : Layer.tee read written = .teeAfter read written [] := by
      simp [Layer.teeAfter]
    rw [stacked_eq, List.length_append, through_onLayers_append, ← stacked_eq, hfresh,
      List.length_cons, through_tee, MemoryStream.run_bind (MemoryStream.run_bind hrun _)]
    rfl
  refine ⟨result, above', past, below', t, habove, hbelow, htee, hrun, hwritten, ?_⟩
  have htaken : ∀ (front back : List Layer) read written,
      withoutTees (front ++ back) = withoutTees (front ++ .tee read written :: back) := by
    intro front back read written
    rw [withoutTees, withoutTees, List.filter_append, List.filter_append]
    rfl
  rw [htaken above below read written, stacked_eq, ← through_withoutTees, ← stacked_eq,
    MemoryStream.run_bind htee, htaken above' below']
  rfl

end StreamCall
