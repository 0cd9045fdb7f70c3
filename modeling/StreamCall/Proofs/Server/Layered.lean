import StreamCall.Proofs.Server.Stage
import StreamCall.Proofs.Stream.Layers

/-!
# Stages under layers

A `Layered` stage is a stage with layers on its stream.  A program that lays one more layer on
the stream runs as it does without, on the stage with that layer (`run_withLayer`), and in the
course of a request it runs as it does outside, but for what is logged (`run_withSpan`).
-/

namespace StreamCall

variable {ν α β : Type}

/-! ### Operations under layers -/

namespace MemoryStream

/-- What does not read passes all layers. -/
theorem run_onLayers_of_unread
    (s : MemoryStream) (n : Nat) (layers : List Layer) {op : StreamOp}
    (h : Serving.Unread (ν := Unit) (.inr op)) :
  ∃ layers', s.run (onLayers n layers op) = (.done ((s.answer op).1, layers'), (s.answer op).2)
  := by
  induction n generalizing layers with
  | zero => exact ⟨layers, rfl⟩
  | succ n ih =>
    cases layers with
    | nil => exact ⟨[], rfl⟩
    | cons top below =>
      obtain ⟨left, hon⟩ := Serving.on_of_unread top h
      obtain ⟨below', hbelow⟩ := ih below
      refine ⟨left (s.answer op).1 :: below', ?_⟩
      have hpassed : onLayers (n + 1) (top :: below) op
          = (onLayers n below op).bind fun r => .done (r.1, left r.1 :: r.2) := by
        rw [onLayers, hon]
        exact Program.bind_assoc (onLayers n below op) _ _
      rw [hpassed, run_bind hbelow]
      rfl

/-- So does what uses the side that is written. -/
theorem run_onLayers_of_not_quiet
    (s : MemoryStream) (n : Nat) (layers : List Layer) {op : StreamOp} (h : ¬ op.Quiet) :
  ∃ layers', s.run (onLayers n layers op) = (.done ((s.answer op).1, layers'), (s.answer op).2)
  := by
  apply s.run_onLayers_of_unread
  cases op <;> first | trivial | exact h trivial

/-- A program that does not read runs under layers as it does without. -/
theorem run_through_onLayers_of_unread
    {p : Stream.Use α} (h : p.Uses fun op => Serving.Unread (ν := Unit) (.inr op))
    {s t : MemoryStream} {a : α} (hrun : s.run p = (.done a, t)) (n : Nat) (layers : List Layer) :
  ∃ layers', s.run (Program.through (onLayers n) layers p) = (.done (a, layers'), t)
  := by
  induction p generalizing s layers with
  | done b =>
    cases hrun
    exact ⟨layers, rfl⟩
  | panic q => cases hrun
  | step op next ih =>
    obtain ⟨layers', hop⟩ := s.run_onLayers_of_unread n layers h.1
    obtain ⟨layers'', hnext⟩ := ih _ (h.2 _) hrun layers'
    exact ⟨layers'', (run_bind hop _).trans hnext⟩

/-- Under layers an operation does to the side that is written what it does without. -/
theorem run_onLayers_output
    (s : MemoryStream) (n : Nat) (layers : List Layer) (op : StreamOp) :
  ∃ answer layers' t, s.run (onLayers n layers op) = (.done (answer, layers'), t)
    ∧ t.output = op.act s.output
  := by
  by_cases hquiet : op.Quiet
  · obtain ⟨answer, layers', t, hrun⟩ := s.run_onLayers n layers op
    refine ⟨answer, layers', t, hrun, ?_⟩
    have hsafe := onLayers_safe (fun _ => trivial) (fun _ => trivial) n layers hquiet
    have houtput := output_run hsafe.uses s
    rw [hrun] at houtput
    rw [houtput, StreamOp.act_of_quiet hquiet]
  · obtain ⟨layers', hrun⟩ := s.run_onLayers_of_not_quiet n layers hquiet
    exact ⟨_, layers', _, hrun, s.output_answer op⟩

end MemoryStream

/-! ### Runs under layers -/

/-- The outcome with another value. -/
def Outcome.map (f : α → β) : Outcome α → Outcome β
  | .done a => .done (f a)
  | .panicked q => .panicked q
  | .waiting => .waiting

/-- A stage with layers on its stream, the top one first. -/
structure Layered (ν : Type) where
  layers : List Layer
  stage : Stage ν

namespace Layered

/-- Answers an operation. The first argument is the number of layers. -/
def answer (n : Nat) (s : Layered ν) :
    (op : (Service ν).Op) → Option ((Service ν).Answer op × Layered ν)
  | .inl op =>
    match s.stage.world.answer op with
    | none => none
    | some (answer, world) => some (answer, { s with stage := { s.stage with world } })
  | .inr op =>
    match s.stage.stream.run (onLayers n s.layers op) with
    | (.done (answer, layers), stream) => some (answer, ⟨layers, { s.stage with stream }⟩)
    | _ => none

/-- Runs a program. -/
def run (n : Nat) (s : Layered ν) (p : Serving ν α) : Outcome α × Layered ν :=
  p.run (answer n) s

theorem run_bind
    {n : Nat} {s t : Layered ν} {p : Serving ν α} {a : α} (h : s.run n p = (.done a, t))
    (f : α → Serving ν β) :
  s.run n (p.bind f) = t.run n (f a)
  := by
  rw [run, Program.run_bind, ← run, h]
  rfl

theorem run_bind_panicked
    {n : Nat} {s t : Layered ν} {p : Serving ν α} {q : Payload} (h : s.run n p = (.panicked q, t))
    (f : α → Serving ν β) :
  s.run n (p.bind f) = (.panicked q, t)
  := by
  rw [run, Program.run_bind, ← run, h]

theorem run_bind_waiting
    {n : Nat} {s t : Layered ν} {p : Serving ν α} (h : s.run n p = (.waiting, t))
    (f : α → Serving ν β) :
  s.run n (p.bind f) = (.waiting, t)
  := by
  rw [run, Program.run_bind, ← run, h]

theorem run_map
    {n : Nat} {s t : Layered ν} {p : Serving ν α} {outcome : Outcome α}
    (h : s.run n p = (outcome, t)) (f : α → β) :
  s.run n (p.bind fun a => .done (f a)) = (outcome.map f, t)
  := by
  cases outcome with
  | done a => exact run_bind h _
  | panicked q => exact run_bind_panicked h _
  | waiting => exact run_bind_waiting h _

/-- An operation on the surroundings is answered by the world. -/
theorem run_inl
    {n : Nat} {s : Layered ν} {op : AmbientOp ν} {answer : op.Answer} {world : World ν}
    (h : s.stage.world.answer op = some (answer, world)) (next : op.Answer → Serving ν α) :
  s.run n (.step (S := Service ν) (.inl op) next)
    = run n { s with stage := { s.stage with world } } (next answer)
  := by
  have hanswer : s.answer n (.inl op)
      = some (answer, { s with stage := { s.stage with world } }) := by
    simp only [Layered.answer, h]
    rfl
  exact Program.run_step (S := Service ν) hanswer next

theorem run_inl_waiting
    {n : Nat} {s : Layered ν} {op : AmbientOp ν} (h : s.stage.world.answer op = none)
    (next : op.Answer → Serving ν α) :
  s.run n (.step (S := Service ν) (.inl op) next) = (.waiting, s)
  := by
  have hanswer : s.answer n (.inl op) = none := by
    simp only [Layered.answer, h]
  exact Program.run_step_waiting (S := Service ν) hanswer next

/-- An operation on the stream is answered through the layers. -/
theorem run_inr
    {n : Nat} {s : Layered ν} {op : StreamOp} {answer : op.Answer} {layers : List Layer}
    {stream : MemoryStream}
    (h : s.stage.stream.run (onLayers n s.layers op) = (.done (answer, layers), stream))
    (next : op.Answer → Serving ν α) :
  s.run n (.step (S := Service ν) (.inr op) next)
    = run n ⟨layers, { s.stage with stream }⟩ (next answer)
  := by
  have hanswer : s.answer n (.inr op) = some (answer, ⟨layers, { s.stage with stream }⟩) := by
    simp only [Layered.answer, h]
    rfl
  exact Program.run_step (S := Service ν) hanswer next

/-- A program on the stream alone runs as it does under the layers. -/
theorem run_onStream
    {n : Nat} {s : Layered ν} {p : Stream.Use α} {a : α} {layers : List Layer}
    {stream : MemoryStream}
    (h : s.stage.stream.run (Program.through (onLayers n) s.layers p)
      = (.done (a, layers), stream)) :
  s.run n (Serving.onStream p) = (.done a, ⟨layers, { s.stage with stream }⟩)
  := by
  induction p generalizing s with
  | done b =>
    cases h
    rfl
  | panic q => cases h
  | step op next ih =>
    obtain ⟨answer, layers', stream', hop⟩ := s.stage.stream.run_onLayers n s.layers op
    apply (run_inr hop _).trans
    apply ih answer
    exact (MemoryStream.run_bind hop _).symm.trans h

/-- Without layers a program runs as on the stage. -/
theorem run_zero (s : Stage ν) (p : Serving ν α) :
  ∃ outcome t, s.run p = (outcome, t) ∧ run 0 ⟨[], s⟩ p = (outcome, ⟨[], t⟩)
  := by
  induction p generalizing s with
  | done a => exact ⟨.done a, s, rfl, rfl⟩
  | panic q => exact ⟨.panicked q, s, rfl, rfl⟩
  | step op next ih =>
    cases op with
    | inl op =>
      have hstage := s.run_inl op next
      cases h : s.world.answer op with
      | none =>
        rw [h] at hstage
        exact ⟨.waiting, s, hstage, run_inl_waiting h next⟩
      | some r =>
        rw [h] at hstage
        obtain ⟨outcome, t, hrun, hrest⟩ := ih r.1 { s with world := r.2 }
        exact ⟨outcome, t, hstage.trans hrun, (run_inl h next).trans hrest⟩
    | inr op => exact ih _ _

/-- A program that lays a layer on the stream runs as it does on the stage with that layer. -/
theorem run_withLayer (n : Nat) (top : Layer) (below : List Layer) (s : Stage ν)
    (p : Serving ν α) :
  ∃ outcome top' below' t, run (n + 1) ⟨top :: below, s⟩ p = (outcome, ⟨top' :: below', t⟩)
    ∧ run n ⟨below, s⟩ (Serving.withLayer top p)
      = (outcome.map fun a => (a, top'), ⟨below', t⟩)
  := by
  induction p generalizing top below s with
  | done a => exact ⟨.done a, top, below, s, rfl, rfl⟩
  | panic q => exact ⟨.panicked q, top, below, s, rfl, rfl⟩
  | step op next ih =>
    cases op with
    | inl op =>
      cases h : s.world.answer op with
      | none =>
        exact ⟨.waiting, top, below, s, run_inl_waiting h next, run_inl_waiting h _⟩
      | some r =>
        obtain ⟨outcome, top', below', t, hrun, hrest⟩ :=
          ih r.1 top below { s with world := r.2 }
        exact ⟨outcome, top', below', t, (run_inl h next).trans hrun, (run_inl h _).trans hrest⟩
    | inr op =>
      have hwith : Serving.withLayer top (.step (.inr op) next)
          = (Serving.onStream (top.on op)).bind fun r => Serving.withLayer r.2 (next r.1) := rfl
      obtain ⟨answer, top', below', stream, hop⟩ := s.stream.run_on n top below op
      have hlayers : s.stream.run (onLayers (n + 1) (top :: below) op)
          = (.done (answer, top' :: below'), stream) := MemoryStream.run_bind hop _
      obtain ⟨outcome, top'', below'', t, hrun, hrest⟩ :=
        ih answer top' below' { s with stream }
      refine ⟨outcome, top'', below'', t, (run_inr hlayers _).trans hrun, ?_⟩
      have hon : run n ⟨below, s⟩ (Serving.onStream (top.on op))
          = (.done (answer, top'), ⟨below', { s with stream }⟩) := run_onStream hop
      rw [hwith, run_bind hon]
      exact hrest

/-- The stage with other events. -/
def withEvents (s : Layered ν) (events : List Event) : Layered ν :=
  { s with stage := { s.stage with world := { s.stage.world with events } } }

/-- In the course of a request a program runs as it does outside, but for what is logged. -/
theorem run_withSpan (n : Nat) (id : RequestId) (s : Layered ν) (events : List Event)
    (p : Serving ν α) :
  ∃ outcome t events', s.run n p = (outcome, t)
    ∧ (s.withEvents events).run n (Serving.withSpan id p) = (outcome, t.withEvents events')
  := by
  induction p generalizing s events with
  | done a => exact ⟨.done a, s, events, rfl, rfl⟩
  | panic q => exact ⟨.panicked q, s, events, rfl, rfl⟩
  | step op next ih =>
    cases op with
    | inl op =>
      cases op with
      | log event =>
        exact ih () { s with stage := { s.stage with
          world := { s.stage.world with events := s.stage.world.events ++ [event] } } }
          (events ++ [event.within id])
      | note note =>
        exact ih () { s with stage := { s.stage with
          world := { s.stage.world with notes := s.stage.world.notes ++ [note] } } } events
      | random k =>
        exact ih _ { s with stage := { s.stage with world := (s.stage.world.random k).2 } } events
      | now => exact ih _ s events
      | isCancelled token => exact ih _ s events
      | cancel token =>
        exact ih () { s with stage := { s.stage with
          world := { s.stage.world with tokens := s.stage.world.tokens.cancel token } } } events
      | branch token =>
        exact ih _ { s with stage := { s.stage with
          world := { s.stage.world with tokens := (s.stage.world.tokens.child token).2 } } } events
      | pause | hang => exact ⟨.waiting, s, events, rfl, rfl⟩
    | inr op =>
      obtain ⟨answer, layers, stream, hop⟩ := s.stage.stream.run_onLayers n s.layers op
      obtain ⟨outcome, t, events', hrun, hspan⟩ :=
        ih answer ⟨layers, { s.stage with stream }⟩ events
      refine ⟨outcome, t, events', (run_inr hop _).trans hrun, ?_⟩
      exact (run_inr (s := s.withEvents events) hop _).trans hspan

end Layered

end StreamCall
