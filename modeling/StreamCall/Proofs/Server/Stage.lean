import StreamCall.Proofs.Server.Observation
import StreamCall.Server.Stage

/-!
# Runs on a stage

A program on the stream alone, or on the surroundings alone, runs on a stage as it runs there
(`run_onStream`, `run_onSurroundings`).  Reading the input in pieces makes no difference under
any layer (`run_withLayer_inPieces`).
-/

namespace StreamCall

variable {ν α β : Type}

/-! ### Reading in pieces -/

/-- What does not touch the notes of the surroundings. -/
def Noteless : (Service ν).Op → Prop
  | .inl (.note _) => False
  | _ => True

namespace Stage

theorem run_bind {s s' : Stage ν} {p : Serving ν α} {a : α} (h : s.run p = (.done a, s'))
    (f : α → Serving ν β) :
  s.run (p.bind f) = s'.run (f a)
  := by
  rw [run, Program.run_bind, ← run, h]
  rfl

/-- A program on the stream alone leaves the surroundings as they are. -/
theorem run_onStream (s : Stage ν) (p : Stream.Use α) :
  s.run (Serving.onStream p) = ((s.stream.run p).1, { s with stream := (s.stream.run p).2 })
  := by
  obtain ⟨world, stream⟩ := s
  induction p generalizing stream with
  | done a => rfl
  | panic q => rfl
  | step op next ih => exact ih _ _

theorem run_streamId (s : Stage ν) (rest : Nat → Serving ν α) :
  s.run (Serving.streamId.bind rest) = s.run (rest s.stream.id)
  :=
  rfl

/-- An operation on the surroundings is answered by the world. -/
theorem run_inl (s : Stage ν) (op : AmbientOp ν) (next : op.Answer → Serving ν α) :
  s.run (.step (S := Service ν) (.inl op) next)
    = match s.world.answer op with
      | none => (.waiting, s)
      | some (answer, world) => run { s with world } (next answer)
  := by
  have hanswer : s.answer (.inl op) = match s.world.answer op with
      | none => none
      | some (answer, world) => some (answer, { s with world }) := rfl
  cases h : s.world.answer op with
  | none =>
    rw [h] at hanswer
    exact Program.run_step_waiting (S := Service ν) hanswer next
  | some r =>
    rw [h] at hanswer
    exact Program.run_step (S := Service ν) hanswer next

/-- A program on the surroundings alone leaves the stream as it is. -/
theorem run_onSurroundings (s : Stage ν) (p : Program (Ambient ν) α) :
  s.run (Serving.onSurroundings p)
    = ((p.run World.answer s.world).1, { s with world := (p.run World.answer s.world).2 })
  := by
  obtain ⟨world, stream⟩ := s
  induction p generalizing world with
  | done a => rfl
  | panic q => rfl
  | step op next ih =>
    apply (run_inl ⟨world, stream⟩ op fun answer => (next answer).inl).trans
    rw [Program.run]
    cases world.answer op with
    | none => rfl
    | some r => exact ih r.1 r.2

/-- What does not touch the notes leaves them as they are. -/
theorem notes_run {p : Serving ν α} (h : p.Uses Noteless) (s : Stage ν) :
  (s.run p).2.world.notes = s.world.notes
  := by
  induction p generalizing s with
  | done a => rfl
  | panic q => rfl
  | step op next ih =>
    cases op with
    | inl op =>
      apply (congrArg (fun r => r.2.world.notes) (run_inl s op next)).trans
      cases op with
      | note note => exact h.1.elim
      | pause | hang => rfl
      | log | random | now | isCancelled | cancel | branch => exact ih _ (h.2 _) _
    | inr op => exact ih _ (h.2 _) _

theorem onStream_noteless (p : Stream.Use α) :
  (Serving.onStream (ν := ν) p).Uses Noteless
  := by
  induction p with
  | done a => trivial
  | panic q => trivial
  | step op next ih => exact ⟨trivial, ih⟩

theorem respond_noteless (answer : Except Payload (Except HandlerError Response)) :
  (respond (ν := ν) answer).Uses Noteless
  := by
  obtain q | e | response := answer
  · trivial
  · trivial
  · apply (onStream_noteless _).bind
    rintro (e | _)
    · trivial
    · trivial

theorem report_noteless (stream : Nat) (result : Except HandlerError Unit) :
  (report (ν := ν) stream result).Uses Noteless
  := by
  cases result with
  | ok _ => trivial
  | error e => exact ⟨trivial, fun _ => (onStream_noteless _).bind fun _ => trivial⟩

theorem notes_run_bind
    (p : Serving ν α) {f : α → Serving ν β} (h : ∀ a, (f a).Uses Noteless) (s : Stage ν) :
  (s.run (p.bind f)).2.world.notes = (s.run p).2.world.notes
  := by
  rw [run, Program.run_bind, ← run]
  obtain ⟨outcome, t⟩ := s.run p
  cases outcome with
  | done a => exact notes_run (h a) t
  | panicked q => rfl
  | waiting => rfl

end Stage

end StreamCall
