import StreamCall.Proofs.Envelope.RoundTrip

/-!
# Sizes of documents

The document of an envelope has a fixed part, the text of the body and the entries with their
commas, in whatever order they are written (`length_encode`).  So every header that is added
makes it longer (`length_encode_lt_insert`).
-/

namespace StreamCall

namespace Headers

/-- An insertion of a new name adds an entry. -/
theorem insertEntry_perm
    {name : String} {es : List (String × String)} (h : ∀ e ∈ es, e.1 ≠ name) (value : String) :
  (insertEntry name value es).Perm ((name, value) :: es)
  := by
  induction es with
  | nil => exact .refl _
  | cons e es ih =>
    rw [List.forall_mem_cons] at h
    rw [insertEntry, if_neg (Ne.symm h.1)]
    split
    · exact .refl _
    · exact ((ih h.2).cons e).trans (.swap _ _ _)

theorem ne_of_get?_eq_none {h : Headers} {name : String} (hnone : h.get? name = none) :
  ∀ e ∈ h.entries, e.1 ≠ name
  := by
  rw [get?, Option.map_eq_none_iff, List.find?_eq_none] at hnone
  intro e he
  simpa using hnone e he

end Headers

namespace Envelope

open Json

/-- The bytes of entries, each with a comma. -/
def entriesLength (es : List (String × String)) : Nat :=
  (es.flatMap fun e => comma :: writeEntry e).length

theorem entriesLength_cons (e : String × String) (es : List (String × String)) :
  entriesLength (e :: es) = (writeEntry e).length + 1 + entriesLength es
  := by
  rw [entriesLength, List.flatMap_cons, List.length_append, List.length_cons, entriesLength]

theorem entriesLength_perm {es es' : List (String × String)} (h : es.Perm es') :
  entriesLength es = entriesLength es'
  :=
  (h.flatMap_right _).length_eq

/-- The first entry is written without its comma. -/
theorem length_writeEntries (es : List (String × String)) :
  (writeEntries es).length = entriesLength es - 1
  := by
  cases es with
  | nil => rfl
  | cons e es =>
    rw [writeEntries_cons, List.length_append, entriesLength_cons, entriesLength]
    omega

theorem length_encodeWith (body : Bytes) (es : List (String × String)) :
  (encodeWith body es).length = (body.length + 2) / 3 * 4 + (entriesLength es - 1) + 24
  := by
  have hbody : (Utf8.encode "\x7b\"body\":\"").length = 9 := by decide
  have hheaders : (Utf8.encode "\",\"headers\":\x7b").length = 13 := by decide
  rw [encodeWith, List.length_append, List.length_append, List.length_append, List.length_append,
    hbody, hheaders, Base64.length_encode, length_writeEntries]
  simp only [List.length_cons, List.length_nil]
  omega

/-- How long the document of an envelope is. -/
theorem length_encode (e : Envelope) :
  (encode e).length
    = (e.body.length + 2) / 3 * 4 + (entriesLength e.headers.entries - 1) + 24
  := by
  rw [encode, length_encodeWith, entriesLength_perm (writingOrder_perm e.headers)]

/-- A header that is added makes the document longer. -/
theorem length_encode_lt_insert
    (body : Bytes) {h : Headers} {name : String} (hname : h.get? name = none) (value : String) :
  (encode ⟨body, h⟩).length < (encode ⟨body, h.insert name value⟩).length
  := by
  have hperm := Headers.insertEntry_perm (Headers.ne_of_get?_eq_none hname) value
  have hentry : 0 < (writeEntry (name, value)).length := by simp [writeEntry, writeString]
  rw [length_encode, length_encode, Headers.insert, entriesLength_perm hperm, entriesLength_cons]
  dsimp only
  omega

end Envelope

end StreamCall
