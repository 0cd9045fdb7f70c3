/-!
# Headers

A header map from names to values.  The entries are kept in the order of their names, so
two maps with the same values are equal.
-/

namespace StreamCall

/-- A map from header names to values; the names ascend. -/
structure Headers where
  entries : List (String × String)
  sorted : entries.Pairwise (fun a b => a.1 < b.1)
deriving DecidableEq

namespace Headers

/-- The map without entries. -/
def empty : Headers := ⟨[], .nil⟩

instance : Inhabited Headers := ⟨empty⟩

/-- Puts an entry in its place, where it replaces one of the same name. -/
def insertEntry (name value : String) : List (String × String) → List (String × String)
  | [] => [(name, value)]
  | e :: rest =>
    if name < e.1 then (name, value) :: e :: rest
    else if name = e.1 then (name, value) :: rest
    else e :: insertEntry name value rest

/-- The entries after an insertion are the new one and old ones. -/
theorem mem_insertEntry
    {name value : String} {es : List (String × String)} {x : String × String}
    (h : x ∈ insertEntry name value es) :
  x = (name, value) ∨ x ∈ es
  := by
  induction es with
  | nil => simpa [insertEntry] using h
  | cons e rest ih =>
    unfold insertEntry at h
    split at h
    · simpa using h
    · split at h <;> simp only [List.mem_cons] at h ⊢
      · rcases h with h | h
        · exact .inl h
        · exact .inr (.inr h)
      · rcases h with h | h
        · exact .inr (.inl h)
        · rcases ih h with h | h
          · exact .inl h
          · exact .inr (.inr h)

/-- An insertion keeps the names in ascending order. -/
theorem pairwise_insertEntry
    {name value : String} {es : List (String × String)}
    (h : es.Pairwise (fun a b => a.1 < b.1)) :
  (insertEntry name value es).Pairwise (fun a b => a.1 < b.1)
  := by
  induction es with
  | nil => simp [insertEntry]
  | cons e rest ih =>
    rw [List.pairwise_cons] at h
    unfold insertEntry
    split
    · rename_i lt
      rw [List.pairwise_cons, List.pairwise_cons]
      refine ⟨?_, h⟩
      intro x hx
      rcases List.mem_cons.mp hx with rfl | hx
      · exact lt
      · exact String.lt_trans lt (h.1 x hx)
    · rename_i nlt
      split
      · rename_i eq
        rw [List.pairwise_cons]
        exact ⟨fun x hx => eq ▸ h.1 x hx, h.2⟩
      · rename_i ne
        rw [List.pairwise_cons]
        refine ⟨fun x hx => ?_, ih h.2⟩
        rcases mem_insertEntry hx with rfl | hx
        · have hle : e.1 ≤ name := String.not_lt.mp nlt
          exact String.not_le.mp fun hge => ne (String.le_antisymm hge hle)
        · exact h.1 x hx

/-- Sets the value of a name. -/
def insert (h : Headers) (name value : String) : Headers :=
  ⟨insertEntry name value h.entries, pairwise_insertEntry h.sorted⟩

/-- The map of a list of entries; of entries with the same name the last one holds. -/
def ofList (es : List (String × String)) : Headers :=
  es.foldl (fun h e => h.insert e.1 e.2) empty

/-- The value of a name. -/
def get? (h : Headers) (name : String) : Option String :=
  (h.entries.find? (·.1 = name)).map Prod.snd

/-- Whether a name has a value. -/
def contains (h : Headers) (name : String) : Bool :=
  (h.get? name).isSome

/-- The number of entries. -/
def size (h : Headers) : Nat :=
  h.entries.length

end Headers

end StreamCall
