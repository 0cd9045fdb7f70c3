import StreamCall.Proofs.Stream.Input
import StreamCall.Proofs.Stream.Exchange

/-!
# Stacks of layers

The layers of a stack stay what they are (`yields_onLayers`).  Two stacks, one on the other, do to
the stream below what the upper one does when each of its operations on the stream below goes
through the lower one (`through_onLayers_append`).
-/

namespace StreamCall

variable {α : Type}

open Program (Yields)

/-! ### What layers stay -/

namespace Layer

/-- The limit that a layer sets; a tee sets none. -/
def limit? : Layer → Option Nat
  | .limited limit _ => some limit
  | .tee _ _ => none

theorem yields_beyond (limit : Nat) (data : Bytes) :
  (beyond limit data).Yields fun r => r.2.limit? = some limit
  := by
  rw [beyond_eq]
  rintro (e | _ | ⟨b, rest⟩) <;> rfl

theorem yields_readLimited (limit remaining n : Nat) :
  (readLimited limit remaining n).Yields fun r => r.2.limit? = some limit
  := by
  rw [readLimited]
  split
  · rw [probe_bind]
    rintro (e | _ | ⟨b, rest⟩) <;> rfl
  · rintro (e | data) <;> rfl

theorem yields_drainLimited (limit remaining : Nat) (upTo : Option Nat) :
  (drainLimited limit remaining upTo).Yields fun r => r.2.limit? = some limit
  := by
  rw [drainLimited]
  split
  · exact fun _ => rfl
  · split
    · exact yields_beyond limit []
    · rintro ⟨data, _ | _ | e⟩
      · rfl
      · exact yields_beyond limit data
      · rfl

/-- A layer stays what it is. -/
theorem yields_on (layer : Layer) (op : StreamOp) :
  (layer.on op).Yields fun r => r.2.limit? = layer.limit?
  := by
  cases layer with
  | limited limit remaining =>
    cases op with
    | read n => exact yields_readLimited limit remaining n
    | drain upTo => exact yields_drainLimited limit remaining upTo
    | _ => exact fun _ => rfl
  | tee read written =>
    rw [tee_on]
    exact fun _ => rfl

end Layer

/-- The limits that the layers of a stack set. -/
def limits (layers : List Layer) : List (Option Nat) := layers.map Layer.limit?

theorem limits_cons (top : Layer) (below : List Layer) :
  limits (top :: below) = top.limit? :: limits below
  :=
  rfl

theorem length_eq_of_limits_eq {layers layers' : List Layer} (h : limits layers' = limits layers) :
  layers'.length = layers.length
  := by
  have hlength := congrArg List.length h
  rwa [limits, limits, List.length_map, List.length_map] at hlength

/-- If an operation leaves the layers of a stack what they are, a program does. -/
theorem yields_through_of_yields_onLayers
    {n : Nat}
    (honLayers : ∀ layers op, (onLayers n layers op).Yields fun r => limits r.2 = limits layers)
    {wanted : α → Prop} {p : Stream.Use α} (hp : p.Yields wanted) (layers : List Layer) :
  (p.through (onLayers n) layers).Yields fun r => wanted r.1 ∧ limits r.2 = limits layers
  := by
  apply hp.through (fun left => limits left = limits layers) _ rfl
  intro left op hleft
  rw [← hleft]
  exact honLayers left op

/-- The layers of a stack stay what they are. -/
theorem yields_onLayers (n : Nat) (layers : List Layer) (op : StreamOp) :
  (onLayers n layers op).Yields fun r => limits r.2 = limits layers
  := by
  induction n generalizing layers op with
  | zero => exact fun _ => rfl
  | succ n ih =>
    cases layers with
    | nil => exact fun _ => rfl
    | cons top below =>
      apply (yields_through_of_yields_onLayers ih (top.yields_on op) below).bind
      rintro ⟨⟨answer, top'⟩, below'⟩ ⟨htop, hbelow⟩
      rw [Yields, limits_cons, limits_cons, htop, hbelow]

/-! ### One stack on another -/

theorem onLayers_cons (n : Nat) (top : Layer) (below : List Layer) (op : StreamOp) :
  onLayers (n + 1) (top :: below) op
    = ((top.on op).through (onLayers n) below).bind fun r => .done (r.1.1, r.1.2 :: r.2)
  :=
  rfl

/-- A result under two stacks, with the layers of both. -/
def joined {δ : Type} (r : (δ × List Layer) × List Layer) : Stream.Use (δ × List Layer) :=
  .done (r.1.1, r.1.2 ++ r.2)

/-- A program under two stacks, when an operation under both is one under the upper stack of which
each operation goes through the lower one. -/
theorem through_append_of_onLayers_append
    {n m : Nat}
    (honLayers : ∀ above below op, above.length = n →
      onLayers (n + m) (above ++ below) op
        = ((onLayers n above op).through (onLayers m) below).bind joined)
    (p : Stream.Use α) {above : List Layer} (h : above.length = n) (below : List Layer) :
  p.through (onLayers (n + m)) (above ++ below)
    = ((p.through (onLayers n) above).through (onLayers m) below).bind joined
  := by
  induction p generalizing above below with
  | done a => rfl
  | panic q => rfl
  | step op next ih =>
    have hyields := yields_through_of_yields_onLayers (yields_onLayers m)
      (yields_onLayers n above op) below
    simp only [Program.through, honLayers above below op h, Program.through_bind,
      Program.bind_assoc]
    -- The rest starts from other layers, and the number of them has to be the same.
    apply hyields.bind_congr
    rintro ⟨⟨answer, above'⟩, below'⟩ ⟨habove, -⟩
    apply ih answer _ below'
    rw [length_eq_of_limits_eq habove, h]

theorem onLayers_append
    (n m : Nat) {above : List Layer} (h : above.length = n) (below : List Layer) (op : StreamOp) :
  onLayers (n + m) (above ++ below) op
    = ((onLayers n above op).through (onLayers m) below).bind joined
  := by
  induction n generalizing above below op with
  | zero =>
    obtain rfl := List.eq_nil_of_length_eq_zero h
    have hupper : onLayers 0 [] op = .step op fun answer => .done (answer, []) := rfl
    rw [Nat.zero_add, hupper, Program.through, Program.bind_assoc]
    exact (Program.bind_done _).symm
  | succ n ih =>
    cases above with
    | nil => cases h
    | cons top above =>
      have habove : above.length = n := Nat.succ.inj h
      have hon := through_append_of_onLayers_append
        (fun above below op h => ih h below op) (top.on op) habove below
      rw [Nat.succ_add, List.cons_append, onLayers_cons, onLayers_cons, hon,
        Program.through_bind, Program.bind_assoc, Program.bind_assoc]
      rfl

/-- Two stacks, one on the other, do what the upper one does when what it asks of the stream below
goes through the lower one. -/
theorem through_onLayers_append (p : Stream.Use α) (above below : List Layer) :
  p.through (onLayers (above.length + below.length)) (above ++ below)
    = ((p.through (onLayers above.length) above).through (onLayers below.length) below).bind
      joined
  :=
  through_append_of_onLayers_append
    (fun _ lower op h => onLayers_append above.length below.length h lower op) p rfl below

end StreamCall
