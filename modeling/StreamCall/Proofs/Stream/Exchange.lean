import StreamCall.Stream.Layer
import StreamCall.Proofs.Program

/-!
# Exchanges on a stream

An exchange is an operation on a stream together with its answer.  It passes bytes one way or the
other, and a tee keeps those that pass (`tee_on`).
-/

namespace StreamCall

/-- An operation on a stream, and its answer. -/
structure Exchange where
  op : StreamOp
  answer : op.Answer

namespace Exchange

/-- The bytes that have been read. -/
def read : Exchange → Bytes
  | ⟨.read _, answer⟩ => Except.toOption (ε := IoError) answer |>.getD []
  | ⟨.drain _, answer⟩ => Drained.data answer
  | _ => []

/-- The bytes that have been accepted for writing. -/
def accepted : Exchange → Bytes
  | ⟨.write data, answer⟩ => data.take (Except.toOption (ε := IoError) answer |>.getD 0)
  | _ => []

end Exchange

/-- What an operation adds to what a tee has kept. -/
theorem tee_on (read written : Bytes) (op : StreamOp) :
  (Layer.tee read written).on op = .step op fun answer =>
    .done (answer,
      .tee (read ++ Exchange.read ⟨op, answer⟩) (written ++ Exchange.accepted ⟨op, answer⟩))
  := by
  have hnothing : Layer.tee (read ++ []) (written ++ []) = .tee read written := by
    rw [List.append_nil, List.append_nil]
  have hread : ∀ data, Layer.tee (read ++ data) (written ++ []) = .tee (read ++ data) written := by
    intro data
    rw [List.append_nil]
  have hwritten : ∀ data, Layer.tee (read ++ []) (written ++ data)
      = .tee read (written ++ data) := by
    intro data
    rw [List.append_nil]
  cases op with
  | read n =>
    apply congrArg (Program.step (S := Streaming) (.read n))
    funext (answer : Except IoError Bytes)
    cases answer with
    | error e => exact congrArg (fun l => Program.done (Except.error e, l)) hnothing.symm
    | ok data => exact congrArg (fun l => Program.done (Except.ok data, l)) (hread data).symm
  | drain upTo =>
    apply congrArg (Program.step (S := Streaming) (.drain upTo))
    funext (answer : Drained)
    exact congrArg (fun l => Program.done (answer, l)) (hread answer.data).symm
  | write data =>
    apply congrArg (Program.step (S := Streaming) (.write data))
    funext (answer : Except IoError Nat)
    cases answer with
    | error e => exact congrArg (fun l => Program.done (Except.error e, l)) hnothing.symm
    | ok taken =>
      exact congrArg (fun l => Program.done (Except.ok taken, l)) (hwritten (data.take taken)).symm
  | _ =>
    apply congrArg (Program.step (S := Streaming) _)
    funext answer
    exact congrArg (fun l => Program.done (answer, l)) hnothing.symm

end StreamCall
