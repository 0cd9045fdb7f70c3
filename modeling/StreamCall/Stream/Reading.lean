import StreamCall.Stream.Memory

/-!
# Reading in pieces

`Stream.drainBy` reads to the end by single reads of given sizes.  On a stream in memory it
finds what a drain finds, whatever the sizes are (`MemoryStream.run_drainBy`), and with more
sizes than there are bytes it gets to the end (`MemoryStream.run_drainBy_isDone`).
-/

namespace StreamCall

/-- Reads to the end by reads of given sizes, behind what has been read. With too few sizes it
does not get there. -/
def Stream.drainBy : List Nat → Bytes → Stream.Use (Option Drained)
  | [], _ => .done none
  | n :: sizes, data =>
    .step (.read n) fun (answer : Except IoError Bytes) =>
      match answer with
      | .error e => .done (some ⟨data, .failed e⟩)
      | .ok [] => .done (some ⟨data, .finished⟩)
      | .ok (b :: piece) => Stream.drainBy sizes (data ++ b :: piece)

namespace MemoryStream

/-- Runs a program on a stream in memory. -/
def run {α : Type} (s : MemoryStream) (p : Stream.Use α) : Outcome α × MemoryStream :=
  p.run (fun s op => some (s.answer op)) s

/-- Reads of which none is empty find what a drain finds and leave the stream as a drain
does. -/
theorem run_drainBy
    (sizes : List Nat) (h : ∀ n ∈ sizes, 0 < n) (data : Bytes) (s s' : MemoryStream)
    (d : Drained) (hd : s.run (Stream.drainBy sizes data) = (.done (some d), s')) :
  d = ⟨data ++ (s.drain none).1.data, (s.drain none).1.ending⟩ ∧ s' = (s.drain none).2
  := by
  induction sizes generalizing data s with
  | nil => cases hd
  | cons n sizes ih =>
    have hn : 0 < n := h n List.mem_cons_self
    have hs : ∀ m ∈ sizes, 0 < m := fun m hm => h m (List.mem_cons_of_mem _ hm)
    simp only [run, Stream.drainBy, Program.run, answer, read] at hd
    cases hr : s.readStopped with
    | some code =>
      simp only [hr] at hd
      cases hd
      simp [drain, hr]
    | none =>
      simp only [hr] at hd
      cases hu : s.unread with
      | nil =>
        simp only [hu, List.take_nil, List.drop_nil] at hd
        cases hd
        simp [drain, hr, hu]
      | cons b rest =>
        obtain ⟨k, rfl⟩ : ∃ k, n = k + 1 := ⟨n - 1, by omega⟩
        simp only [hu, List.take_succ_cons, List.drop_succ_cons] at hd
        obtain ⟨h₁, h₂⟩ := ih hs _ _ hd
        simp [drain, hr, hu] at h₁ h₂ ⊢
        exact ⟨h₁, h₂⟩

/-- More reads than there are bytes get to the end. -/
theorem run_drainBy_isDone
    (sizes : List Nat) (h : ∀ n ∈ sizes, 0 < n) (data : Bytes) (s : MemoryStream)
    (hl : s.unread.length < sizes.length) :
  ∃ d s', s.run (Stream.drainBy sizes data) = (.done (some d), s')
  := by
  induction sizes generalizing data s with
  | nil => cases hl
  | cons n sizes ih =>
    have hn : 0 < n := h n List.mem_cons_self
    have hs : ∀ m ∈ sizes, 0 < m := fun m hm => h m (List.mem_cons_of_mem _ hm)
    simp only [run, Stream.drainBy, Program.run, answer, read]
    cases hr : s.readStopped with
    | some code => exact ⟨_, _, rfl⟩
    | none =>
      cases hu : s.unread with
      | nil =>
        simp only [List.take_nil, List.drop_nil]
        exact ⟨_, _, rfl⟩
      | cons b rest =>
        obtain ⟨k, rfl⟩ : ∃ k, n = k + 1 := ⟨n - 1, by omega⟩
        simp only [List.take_succ_cons, List.drop_succ_cons]
        apply ih hs
        simp only [hu, List.length_cons, List.length_drop] at hl ⊢
        omega

end MemoryStream

end StreamCall
