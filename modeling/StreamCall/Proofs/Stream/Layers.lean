import Mathlib.Tactic.Use
import StreamCall.Proofs.Stream.Input

/-!
# Layers on a stream in memory

A stream in memory answers every operation under any stack of layers (`run_onLayers`).  What an
operation does to the `MemoryStream.output` is `StreamOp.act` (`output_answer`), and what does
not use the side that is written leaves it as it is, under layers too (`output_run`).
-/

namespace StreamCall

variable {α : Type}

/-- Whether an operation does not use the side that is written. -/
def StreamOp.Quiet : StreamOp → Prop
  | .write _ => False
  | .shutdown => False
  | .cancelWrite _ => False
  | _ => True

/-! ### What layers do -/

section

variable {A : StreamOp → Prop} (hread : ∀ n, A (.read n)) (hdrain : ∀ upTo, A (.drain upTo))

namespace Layer

include hread in
theorem beyond_safe (limit : Nat) (data : Bytes) :
  (beyond limit data).Safe A
  := by
  rw [beyond, probe_bind]
  use hread 1
  rintro (e | _ | ⟨b, rest⟩) <;> trivial

include hread in
theorem readLimited_safe (limit remaining n : Nat) :
  (readLimited limit remaining n).Safe A
  := by
  rw [readLimited]
  split
  · rw [probe_bind]
    use hread 1
    rintro (e | _ | ⟨b, rest⟩) <;> trivial
  · use hread _
    rintro (e | data) <;> trivial

include hread hdrain in
theorem drainLimited_safe (limit remaining : Nat) (upTo : Option Nat) :
  (drainLimited limit remaining upTo).Safe A
  := by
  rw [drainLimited]
  split
  · exact ⟨hdrain upTo, fun _ => trivial⟩
  · split
    · exact beyond_safe hread limit []
    · use hdrain _
      rintro ⟨data, _ | _ | e⟩
      · trivial
      · exact beyond_safe hread limit data
      · trivial

include hread hdrain in
/-- A layer never panics, and of its own accord it only reads. -/
theorem on_safe (layer : Layer) {op : StreamOp} (h : A op) :
  (layer.on op).Safe A
  := by
  cases layer with
  | limited limit remaining =>
    cases op with
    | read n => exact readLimited_safe hread limit remaining n
    | drain upTo => exact drainLimited_safe hread hdrain limit remaining upTo
    | _ => exact ⟨h, fun _ => trivial⟩
  | tee read written =>
    cases op with
    | read n =>
      use h
      rintro (e | data) <;> trivial
    | write data =>
      use h
      rintro (e | taken) <;> trivial
    | _ => exact ⟨h, fun _ => trivial⟩

end Layer

include hread hdrain in
theorem onLayers_safe (n : Nat) (layers : List Layer) {op : StreamOp} (h : A op) :
  (onLayers n layers op).Safe A
  := by
  induction n generalizing layers op with
  | zero => exact ⟨h, fun _ => trivial⟩
  | succ n ih =>
    cases layers with
    | nil => exact ⟨h, fun _ => trivial⟩
    | cons top below =>
      apply Program.Safe.bind
      · exact (top.on_safe hread hdrain h).through (fun below _ hop => ih below hop) below
      · exact fun _ => trivial

include hread hdrain in
/-- As `Layer.on_safe`, with layers below. -/
theorem Layer.through_onLayers_safe
    (layer : Layer) (n : Nat) (layers : List Layer) {op : StreamOp} (h : A op) :
  (Program.through (onLayers n) layers (layer.on op)).Safe A
  :=
  (layer.on_safe hread hdrain h).through
    (fun layers _ hop => onLayers_safe hread hdrain n layers hop) layers

end

/-! ### The side that is written -/

/-- The state of a side once it has been reset, if it was open. -/
def WriteSide.cancel (code : Nat) : WriteSide → WriteSide
  | .opened => .reset code
  | side => side

/-- The output once the side has been reset, if it was open. -/
def cancelOutput (code : Nat) (output : WriteSide × Bytes) : WriteSide × Bytes :=
  (output.1.cancel code, output.2)

/-- The first code counts. -/
theorem cancelOutput_cancelOutput (code code' : Nat) (output : WriteSide × Bytes) :
  cancelOutput code' (cancelOutput code output) = cancelOutput code output
  := by
  obtain ⟨_ | _ | _, written⟩ := output <;> rfl

/-- What an operation does to the side that is written. -/
def StreamOp.act : StreamOp → WriteSide × Bytes → WriteSide × Bytes
  | .write data, (.opened, written) => (.opened, written ++ data)
  | .shutdown, (.opened, written) => (.closed, written)
  | .cancelWrite code, output => cancelOutput code output
  | _, output => output

theorem StreamOp.act_of_quiet {op : StreamOp} (h : op.Quiet) (output : WriteSide × Bytes) :
  op.act output = output
  := by
  cases op with
  | write | shutdown | cancelWrite => cases h
  | _ => rfl

namespace MemoryStream

/-- The side that is written: its state, and what has been written. -/
def output (s : MemoryStream) : WriteSide × Bytes := (s.side, s.written)

theorem output_drain (s : MemoryStream) (upTo : Option Nat) :
  (s.drain upTo).2.output = s.output
  := by
  simp only [drain]
  split
  · rfl
  · split
    · rfl
    · cases upTo <;> rfl

theorem output_read (s : MemoryStream) (n : Nat) :
  (s.read n).2.output = s.output
  := by
  rw [read]
  split <;> rfl

theorem output_answer (s : MemoryStream) (op : StreamOp) :
  (s.answer op).2.output = op.act s.output
  := by
  cases op with
  | write | shutdown | cancelWrite => obtain ⟨_, _, _, _, _, _ | _ | _, _, _⟩ := s <;> rfl
  | read n => exact s.output_read n
  | drain upTo => exact s.output_drain upTo
  | _ => rfl

/-- What does not use the side that is written leaves the output as it is. -/
theorem output_run {p : Stream.Use α} (h : p.Uses StreamOp.Quiet) (s : MemoryStream) :
  (s.run p).2.output = s.output
  := by
  induction p generalizing s with
  | done a => rfl
  | panic q => rfl
  | step op next ih =>
    apply (ih _ (h.2 _) _).trans
    exact (s.output_answer op).trans (StreamOp.act_of_quiet h.1 _)

/-! ### Answers -/

/-- A stream in memory lets nobody wait. -/
theorem run_of_safe {A : StreamOp → Prop} {p : Stream.Use α} (h : p.Safe A) (s : MemoryStream) :
  ∃ a t, s.run p = (.done a, t)
  := by
  induction p generalizing s with
  | done a => exact ⟨a, s, rfl⟩
  | panic q => cases h
  | step op next ih => exact ih _ (h.2 _) _

theorem run_onLayers (s : MemoryStream) (n : Nat) (layers : List Layer) (op : StreamOp) :
  ∃ answer layers' t, s.run (onLayers n layers op) = (.done (answer, layers'), t)
  := by
  have hsafe : (onLayers n layers op).Safe fun _ => True :=
    onLayers_safe (fun _ => trivial) (fun _ => trivial) n layers trivial
  obtain ⟨⟨answer, layers'⟩, t, hrun⟩ := run_of_safe hsafe s
  exact ⟨answer, layers', t, hrun⟩

/-- So does a stream in memory under layers, when one more is laid on it. -/
theorem run_on
    (s : MemoryStream) (n : Nat) (top : Layer) (below : List Layer) (op : StreamOp) :
  ∃ answer top' below' t, s.run (Program.through (onLayers n) below (top.on op))
    = (.done ((answer, top'), below'), t)
  := by
  have hsafe : (Program.through (onLayers n) below (top.on op)).Safe fun _ => True :=
    top.through_onLayers_safe (fun _ => trivial) (fun _ => trivial) n below trivial
  obtain ⟨⟨⟨answer, top'⟩, below'⟩, t, hrun⟩ := run_of_safe hsafe s
  exact ⟨answer, top', below', t, hrun⟩

end MemoryStream

end StreamCall
