import StreamCall.Envelope.Headers

/-!
# Laws of headers

A header map is what `get?` sees of it (`ext_get?`).  An insertion changes the value of one
name (`get?_insert`), so in a list of entries the last one of a name holds (`get?_ofList`),
and the entries of a map give the map back in any order (`ofList_of_perm`).
-/

namespace StreamCall.Headers

/-- An insertion changes what is found for its name, and nothing else. -/
theorem find?_insertEntry (name value other : String) (es : List (String × String)) :
  (insertEntry name value es).find? (·.1 = other)
    = if other = name then some (name, value) else es.find? (·.1 = other)
  := by
  induction es with
  | nil =>
    by_cases h : other = name
    · simp [insertEntry, h]
    · simp [insertEntry, h, Ne.symm h]
  | cons e rest ih =>
    unfold insertEntry
    split
    · by_cases h : other = name
      · simp [h]
      · rw [List.find?_cons_of_neg, if_neg h]
        simpa using Ne.symm h
    split
    · rename_i heq
      by_cases h : other = name
      · simp [h]
      · rw [List.find?_cons_of_neg, List.find?_cons_of_neg, if_neg h]
        · simpa [← heq] using Ne.symm h
        · simpa using Ne.symm h
    · rename_i hne
      by_cases he : e.1 = other
      · have hother : other ≠ name := fun h => hne (h.symm.trans he.symm)
        rw [List.find?_cons_of_pos (by simpa using he), if_neg hother,
          List.find?_cons_of_pos (by simpa using he)]
      · rw [List.find?_cons_of_neg (by simpa using he), ih,
          List.find?_cons_of_neg (by simpa using he)]

/-- The value of a name after an insertion. -/
theorem get?_insert (h : Headers) (name value other : String) :
  (h.insert name value).get? other = if other = name then some value else h.get? other
  := by
  rw [get?, insert, find?_insertEntry]
  split
  · rfl
  · rfl

theorem get?_empty (name : String) :
  empty.get? name = none
  :=
  rfl

/-- In ascending entries, an entry is what is found for its name. -/
theorem mem_iff_find?
    {es : List (String × String)} (hes : es.Pairwise (fun a b => a.1 < b.1))
    (x : String × String) :
  x ∈ es ↔ es.find? (·.1 = x.1) = some x
  := by
  constructor
  · intro hx
    induction es with
    | nil => cases hx
    | cons e rest ih =>
      rw [List.pairwise_cons] at hes
      cases hx with
      | head => simp
      | tail _ hx =>
        rw [List.find?_cons_of_neg, ih hes.2 hx]
        have hlt := hes.1 x hx
        simpa using fun heq => String.lt_irrefl _ (heq ▸ hlt)
  · exact List.mem_of_find?_eq_some

/-- The entries of a map are its names with their values. -/
theorem mem_entries_iff {h : Headers} {name value : String} :
  (name, value) ∈ h.entries ↔ h.get? name = some value
  := by
  rw [mem_iff_find? h.sorted, get?]
  constructor
  · intro hfind
    rw [hfind]
    rfl
  · intro hget
    obtain ⟨x, hx, rfl⟩ := Option.map_eq_some_iff.mp hget
    have hname : x.1 = name := by simpa using List.find?_some hx
    rw [hx, ← hname]

/-- A map is what is seen of it. -/
theorem ext_get? {g h : Headers} (hgh : ∀ name, g.get? name = h.get? name) :
  g = h
  := by
  have hnodup : ∀ k : Headers, k.entries.Nodup := by
    intro k
    apply k.sorted.imp
    rintro a _ hlt rfl
    exact String.lt_irrefl _ hlt
  have hperm : g.entries.Perm h.entries := by
    rw [List.perm_ext_iff_of_nodup (hnodup g) (hnodup h)]
    rintro ⟨name, value⟩
    rw [mem_entries_iff, mem_entries_iff, hgh]
  have hentries : g.entries = h.entries := by
    apply hperm.eq_of_pairwise _ g.sorted h.sorted
    intro a b _ _ hab hba
    exact absurd hba (String.lt_asymm hab)
  obtain ⟨es, hes⟩ := g
  obtain ⟨fs, hfs⟩ := h
  cases hentries
  rfl

/-- The last value of a name in a list of entries. -/
def last? (es : List (String × String)) (name : String) : Option String :=
  (es.reverse.find? (·.1 = name)).map Prod.snd

theorem last?_append (es fs : List (String × String)) (name : String) :
  last? (es ++ fs) name = (last? fs name).or (last? es name)
  := by
  rw [last?, List.reverse_append, List.find?_append, Option.map_or]
  rfl

theorem last?_singleton (e : String × String) (name : String) :
  last? [e] name = if name = e.1 then some e.2 else none
  := by
  by_cases h : e.1 = name
  · simp [last?, h]
  · simp [last?, h, Ne.symm h]

theorem get?_foldl_insert (es : List (String × String)) (h : Headers) (name : String) :
  (es.foldl (fun h e => h.insert e.1 e.2) h).get? name = (last? es name).or (h.get? name)
  := by
  induction es generalizing h with
  | nil => rfl
  | cons e rest ih =>
    rw [List.foldl_cons, ih, get?_insert, ← List.singleton_append, last?_append, last?_singleton]
    cases last? rest name with
    | none =>
      split
      · rfl
      · rfl
    | some v => rfl

/-- Of entries with the same name the last one holds. -/
theorem get?_ofList (es : List (String × String)) (name : String) :
  (ofList es).get? name = last? es name
  := by
  rw [ofList, get?_foldl_insert, get?_empty, Option.or_none]

/-- The entries of a map give the map back in any order. -/
theorem ofList_of_perm {h : Headers} {es : List (String × String)} (hperm : es.Perm h.entries) :
  ofList es = h
  := by
  apply ext_get?
  intro name
  rw [get?_ofList, last?]
  cases hfind : es.reverse.find? (·.1 = name) with
  | none =>
    cases hget : h.get? name with
    | none => rfl
    | some v =>
      rw [← mem_entries_iff, ← hperm.mem_iff, ← List.mem_reverse] at hget
      have := List.find?_eq_none.mp hfind _ hget
      simp at this
  | some x =>
    obtain ⟨n, v⟩ := x
    have hname : n = name := by simpa using List.find?_some hfind
    have hmem := List.mem_of_find?_eq_some hfind
    rw [List.mem_reverse, hperm.mem_iff, mem_entries_iff, hname] at hmem
    rw [hmem]
    rfl

end StreamCall.Headers
