import Mathlib.Data.List.TakeWhile
import StreamCall.Proofs.Json.Longer
import StreamCall.Proofs.Envelope.RoundTrip

/-!
# Where a document ends

A document ends where its object or its list does.  No reader of it looks further
(`read_more`), so behind a document there may be blanks and nothing else
(`decode_append_eq_ok_iff`), and what is cut off before the end is no document
(`encodeWith_self_delimiting`).
-/

namespace StreamCall.Envelope

open Json

/-! ### The parts of an envelope in a longer text -/

theorem unexpected_ne_ok {α : Type} {expected : String} {b : UInt8} {text : Bytes} {r : α} :
  unexpected expected b text ≠ .ok r
  := by
  intro h
  have hnone := toOption_unexpected (α := α) expected b text
  rw [h] at hnone
  cases hnone

theorem readString_more {text : Bytes} {r : String × Bytes} (h : readString text = .ok r)
    (more : Bytes) :
  readString (text ++ more) = .ok (r.1, r.2 ++ more)
  := by
  revert h
  fun_cases readString text with
  | case1 => rintro ⟨⟩
  | case2 inside hspace =>
    intro h
    simp only [readString, skipSpace_more hspace, if_true, string_more h]
  | case3 => exact fun h => (unexpected_ne_ok h).elim

theorem readOptionalString_more {text : Bytes} {r : Option String × Bytes}
    (h : readOptionalString text = .ok r) (more : Bytes) :
  readOptionalString (text ++ more) = .ok (r.1, r.2 ++ more)
  := by
  cases hspace : skipSpace text with
  | nil =>
    simp only [readOptionalString, hspace] at h
    cases h
  | cons b rest =>
    have hspace' := skipSpace_more hspace more
    simp only [readOptionalString, hspace, hspace', List.head?_cons, List.tail_cons] at h ⊢
    split at h
    · rw [if_pos ‹_›]
      cases hword : word ull rest with
      | error f =>
        rw [hword] at h
        cases h
      | ok left =>
        rw [hword] at h
        cases h
        rw [word_more hword]
    · rw [if_neg ‹_›, ← List.cons_append]
      cases hread : readString (b :: rest) with
      | error f =>
        rw [hread] at h
        cases h
      | ok s =>
        rw [hread] at h
        cases h
        rw [readString_more hread]

theorem readBody_more {behind : Bytes → Bytes} {text : Bytes} {r : Bytes × Bytes}
    (h : readBody behind text = .ok r) (more : Bytes) :
  readBody behind (text ++ more) = .ok (r.1, r.2 ++ more)
  := by
  revert h
  fun_cases readBody behind text with
  | case2 left hread =>
    rintro ⟨⟩
    simp only [readBody, readOptionalString_more hread]
  | case3 s left hread bytes hbytes =>
    rintro ⟨⟩
    simp only [readBody, readOptionalString_more hread, hbytes]
  | _ => rintro ⟨⟩

theorem readColon_more {text rest : Bytes} (h : readColon text = .ok rest) (more : Bytes) :
  readColon (text ++ more) = .ok (rest ++ more)
  := by
  revert h
  fun_cases readColon text with
  | case2 left hspace =>
    rintro ⟨⟩
    simp only [readColon, skipSpace_more hspace, if_true]
  | _ => rintro ⟨⟩

theorem nextMember_more {first : Bool} {text : Bytes} {r : Bool × Bytes}
    (h : nextMember first text = .ok r) (more : Bytes) :
  nextMember first (text ++ more) = .ok (r.1, r.2 ++ more)
  := by
  revert h
  fun_cases nextMember first text with
  | case2 left hspace =>
    rintro ⟨⟩
    simp only [nextMember, skipSpace_more hspace, if_true, List.cons_append]
  | case4 b left hspace hclose hcomma inside hspace' =>
    rintro ⟨⟩
    simp only [nextMember, skipSpace_more hspace, if_neg hclose, if_pos hcomma,
      skipSpace_more hspace', if_true]
  | case7 left hfirst hspace hclose hcomma =>
    rintro ⟨⟩
    simp only [nextMember, skipSpace_more hspace, if_neg hclose, if_neg hcomma, if_pos hfirst,
      if_true]
  | _ => rintro ⟨⟩

theorem endObject_more {text rest : Bytes} (h : endObject text = .ok rest) (more : Bytes) :
  endObject (text ++ more) = .ok (rest ++ more)
  := by
  revert h
  fun_cases endObject text with
  | case2 left hspace =>
    rintro ⟨⟩
    simp only [endObject, skipSpace_more hspace, if_true]
  | _ => rintro ⟨⟩

/-- The bound on the number of steps may be larger for the longer text. -/
theorem readEntries_more {n m : Nat} {first : Bool} {acc : Headers} {text : Bytes}
    {r : Headers × Bytes} (h : readEntries n first acc text = .ok r) (hn : n ≤ m)
    (more : Bytes) :
  readEntries m first acc (text ++ more) = .ok (r.1, r.2 ++ more)
  := by
  fun_induction readEntries n first acc text generalizing m with
  | case3 n first acc text left hnext =>
    obtain ⟨k, rfl⟩ := Nat.exists_eq_add_of_lt hn
    cases h
    simp only [readEntries, nextMember_more hnext]
  | case7 n first acc text inside hnext name behind hname before hcolon value left hvalue ih =>
    obtain ⟨k, rfl⟩ := Nat.exists_eq_add_of_lt hn
    simp only [readEntries, nextMember_more hnext, string_more hname, readColon_more hcolon,
      readString_more hvalue]
    exact ih h (Nat.le_add_right n k)
  | _ => cases h

theorem readHeaders_more {text : Bytes} {r : Headers × Bytes} (h : readHeaders text = .ok r)
    (more : Bytes) :
  readHeaders (text ++ more) = .ok (r.1, r.2 ++ more)
  := by
  have hobject : openObject ≠ 0x6E := by decide
  revert h
  fun_cases readHeaders text with
  | case3 inside left hword hspace =>
    rintro ⟨⟩
    simp only [readHeaders, skipSpace_more hspace, if_true, word_more hword]
  | case6 inside headers behind hread left hend hspace =>
    rintro ⟨⟩
    have hlength : inside.length + 1 ≤ (inside ++ more).length + 1 := by simp
    simp only [readHeaders, skipSpace_more hspace, if_neg hobject, if_true,
      readEntries_more hread hlength, endObject_more hend]
  | case7 => exact fun h => (unexpected_ne_ok h).elim
  | _ => rintro ⟨⟩

/-! ### Envelopes in a longer text -/

/-- Something is left behind a member. -/
theorem readMembers_ne_nil {n : Nat} {acc : Members} {text : Bytes} {r : Members × Bytes}
    (h : readMembers n false acc text = .ok r) :
  text ≠ []
  := by
  rintro rfl
  cases n <;> cases h

theorem readMembers_more {n m : Nat} {first : Bool} {acc : Members} {text : Bytes}
    {r : Members × Bytes} (h : readMembers n first acc text = .ok r) (hn : n ≤ m)
    (more : Bytes) :
  readMembers m first acc (text ++ more) = .ok (r.1, r.2 ++ more)
  := by
  fun_induction readMembers n first acc text generalizing m with
  | case3 n first acc text left hnext =>
    obtain ⟨k, rfl⟩ := Nat.exists_eq_add_of_lt hn
    cases h
    simp only [readMembers, nextMember_more hnext]
  | case8 n first acc text inside hnext behind hbody before hcolon body left hread hname ih =>
    obtain ⟨k, rfl⟩ := Nat.exists_eq_add_of_lt hn
    simp only [readMembers, nextMember_more hnext, string_more hname, if_true, if_neg hbody,
      readColon_more hcolon, readBody_more hread]
    exact ih h (Nat.le_add_right n k)
  | case12 n first acc text inside hnext behind hheaders before hcolon headers left hread hname
      hother ih =>
    obtain ⟨k, rfl⟩ := Nat.exists_eq_add_of_lt hn
    simp only [readMembers, nextMember_more hnext, string_more hname, if_neg hother, if_true,
      if_neg hheaders, readColon_more hcolon, readHeaders_more hread]
    exact ih h (Nat.le_add_right n k)
  | case15 n first acc text inside hnext name behind hname hbody hheaders before hcolon left hskip
      ih =>
    obtain ⟨k, rfl⟩ := Nat.exists_eq_add_of_lt hn
    simp only [readMembers, nextMember_more hnext, string_more hname, if_neg hbody,
      if_neg hheaders, readColon_more hcolon, skip_more hskip (readMembers_ne_nil h)]
    exact ih h (Nat.le_add_right n k)
  | _ => cases h

theorem readObject_more {text : Bytes} {r : Envelope × Bytes} (h : readObject text = .ok r)
    (more : Bytes) :
  readObject (text ++ more) = .ok (r.1, r.2 ++ more)
  := by
  have hlength : text.length + 1 ≤ (text ++ more).length + 1 := by simp
  revert h
  fun_cases readObject text with
  | case3 members behind hread left hend =>
    rintro ⟨⟩
    simp only [readObject, readMembers_more hread hlength, endObject_more hend]
  | _ => rintro ⟨⟩

/-! ### Lists in a longer text -/

theorem nextElement_more {first : Bool} {text : Bytes} {r : Bool × Bytes}
    (h : nextElement first text = .ok r) (more : Bytes) :
  nextElement first (text ++ more) = .ok (r.1, r.2 ++ more)
  := by
  revert h
  fun_cases nextElement first text with
  | case2 left hspace =>
    rintro ⟨⟩
    simp only [nextElement, skipSpace_more hspace, if_true, List.cons_append]
  | case5 b behind hspace hclose hcomma c left hspace' hclose' =>
    rintro ⟨⟩
    simp only [nextElement, skipSpace_more hspace, if_neg hclose, if_pos hcomma,
      skipSpace_more hspace', if_neg hclose', List.cons_append]
  | case6 b left hspace hclose hcomma hfirst =>
    rintro ⟨⟩
    simp only [nextElement, skipSpace_more hspace, if_neg hclose, if_neg hcomma, if_pos hfirst,
      List.cons_append]
  | _ => rintro ⟨⟩

/-- An envelope is complete where its list is. -/
theorem endList_more {e : Envelope} {text : Bytes} {r : Envelope × Bytes}
    (h : (endList text).map (e, ·) = .ok r) (more : Bytes) :
  (endList (text ++ more)).map (e, ·) = .ok (r.1, r.2 ++ more)
  := by
  revert h
  fun_cases endList text with
  | case2 left hspace =>
    rintro ⟨⟩
    simp only [endList, skipSpace_more hspace, if_true]
    rfl
  | _ => rintro ⟨⟩

theorem readListHeaders_more {body text : Bytes} {r : Envelope × Bytes}
    (h : readListHeaders body text = .ok r) (more : Bytes) :
  readListHeaders body (text ++ more) = .ok (r.1, r.2 ++ more)
  := by
  revert h
  fun_cases readListHeaders body text with
  | case2 left hnext =>
    intro h
    simp only [readListHeaders, nextElement_more hnext, endList_more h]
  | case4 behind hnext headers left hread =>
    intro h
    simp only [readListHeaders, nextElement_more hnext, readHeaders_more hread, endList_more h]
  | _ => rintro ⟨⟩

theorem readList_more {text : Bytes} {r : Envelope × Bytes} (h : readList text = .ok r)
    (more : Bytes) :
  readList (text ++ more) = .ok (r.1, r.2 ++ more)
  := by
  revert h
  fun_cases readList text with
  | case2 left hnext =>
    intro h
    simp only [readList, nextElement_more hnext, endList_more h]
  | case4 behind hnext body left hread =>
    intro h
    simp only [readList, nextElement_more hnext, readBody_more hread, readListHeaders_more h]
  | _ => rintro ⟨⟩

/-! ### Documents -/

/-- An envelope is read from the front of every longer text in the same way. -/
theorem read_more {side : Side} {text : Bytes} {r : Envelope × Bytes}
    (h : read side text = .ok r) (more : Bytes) :
  read side (text ++ more) = .ok (r.1, r.2 ++ more)
  := by
  have hlist : openList ≠ openObject := by decide
  revert h
  fun_cases read side text with
  | case1 => rintro ⟨⟩
  | case2 inside hspace =>
    intro h
    simp only [read, skipSpace_more hspace, if_true, readObject_more h]
  | case3 inside hspace =>
    intro h
    simp only [read, skipSpace_more hspace, if_neg hlist, if_true, readList_more h]
  | case4 => exact fun h => (unexpected_ne_ok h).elim

/-- A text of blanks only. -/
theorem skipSpace_eq_nil_iff (text : Bytes) :
  skipSpace text = [] ↔ ∀ b ∈ text, b ∈ [0x20, 0x0A, 0x09, 0x0D]
  := by
  rw [skipSpace, List.dropWhile_eq_nil_iff]
  simp [isSpace, or_assoc]

/-- A document holds an envelope if the envelope is read from its front and blanks are left. -/
theorem decode_eq_ok_iff {side : Side} {document : Bytes} {e : Envelope} :
  decode side document = .ok e
    ↔ ∃ rest, read side document = .ok (e, rest) ∧ skipSpace rest = []
  := by
  rw [decode]
  cases hread : read side document with
  | error f => simp
  | ok r =>
    obtain ⟨e', rest⟩ := r
    cases hspace : skipSpace rest with
    | nil => simp [hspace]
    | cons b left => simp [hspace]

/-- Behind a document there may be blanks and nothing else, and with them it holds the same. -/
theorem decode_append_eq_ok_iff {side : Side} {document : Bytes} {e : Envelope}
    (h : decode side document = .ok e) (e' : Envelope) (more : Bytes) :
  decode side (document ++ more) = .ok e' ↔ e' = e ∧ skipSpace more = []
  := by
  obtain ⟨rest, hread, hrest⟩ := decode_eq_ok_iff.mp h
  have hspace : skipSpace (rest ++ more) = skipSpace more := by
    rw [skipSpace] at hrest
    rw [skipSpace, List.dropWhile_append, hrest]
    rfl
  rw [decode_eq_ok_iff, read_more hread more]
  constructor
  · rintro ⟨left, hleft, hnil⟩
    cases hleft
    exact ⟨rfl, hspace ▸ hnil⟩
  · rintro ⟨rfl, hnil⟩
    exact ⟨rest ++ more, rfl, hspace.trans hnil⟩

/-- A document of an envelope that shows where it ends, to readers of either kind of message:
what is cut off earlier is refused, and so is what goes on with anything but blanks. -/
structure SelfDelimiting (document : Bytes) (e : Envelope) : Prop where
  cut : ∀ side p, p <+: document → p ≠ document → ∃ f, decode side p = .error f
  behind : ∀ side more e', decode side (document ++ more) = .ok e'
    ↔ e' = e ∧ ∀ b ∈ more, b ∈ [0x20, 0x0A, 0x09, 0x0D]

/-- Every document shows where it ends, unless it ends with blanks. -/
theorem selfDelimiting_of_decode {document : Bytes} {e : Envelope} {b : UInt8}
    (h : ∀ side, decode side document = .ok e) (hlast : document.getLast? = some b)
    (hb : isSpace b = false) :
  SelfDelimiting document e
  where
  cut := by
    rintro side p ⟨more, rfl⟩ hne
    cases hcut : decode side p with
    | error f => exact ⟨f, rfl⟩
    | ok e' =>
      -- The rest of the document would be blank, but it holds the last byte.
      have hmore : more ≠ [] := by
        rintro rfl
        exact hne (List.append_nil p).symm
      have hspace := ((decode_append_eq_ok_iff hcut e more).mp (h side)).2
      rw [List.getLast?_append_of_ne_nil p hmore] at hlast
      rw [skipSpace, List.dropWhile_eq_nil_iff] at hspace
      rw [hspace b (List.mem_of_getLast? hlast)] at hb
      cases hb
  behind side more e' := by
    rw [decode_append_eq_ok_iff (h side) e' more, skipSpace_eq_nil_iff]

/-- The documents of requests and responses show where they end, in whatever order their headers
are written. -/
theorem encodeWith_selfDelimiting :
  (∀ (r : Request) (es : List (String × String)), es.Perm r.headers.entries →
    SelfDelimiting (encodeWith r.body es) r.envelope)
  ∧ (∀ (s : Response) (es : List (String × String)), es.Perm s.headers.entries →
    SelfDelimiting (encodeWith s.body es) s.envelope)
  ∧ ∀ e : Envelope, encode e = encodeWith e.body (writingOrder e.headers)
    ∧ (writingOrder e.headers).Perm e.headers.entries
  := by
  have hlast : ∀ body es, (encodeWith body es).getLast? = some closeObject := by
    intro body es
    simp [encodeWith]
  refine ⟨?_, ?_, ?_⟩
  · intro r es hes
    exact selfDelimiting_of_decode (fun side => decode_encodeWith_of_perm side r.body hes)
      (hlast r.body es) rfl
  · intro s es hes
    exact selfDelimiting_of_decode (fun side => decode_encodeWith_of_perm side s.body hes)
      (hlast s.body es) rfl
  · intro e
    exact ⟨rfl, writingOrder_perm e.headers⟩

/-- Cut off before its last byte, with blanks behind it, and with a second document behind it. -/
theorem encodeWith_selfDelimiting_oddHeaders :
  oddHeaders.entries.reverse.Perm oddHeaders.entries
  ∧ (∃ f, decode .response (encodeWith [7] oddHeaders.entries.reverse).dropLast = .error f)
  ∧ decode .request (encodeWith [7] oddHeaders.entries.reverse ++ [0x20, 0x0D])
    = .ok ⟨[7], oddHeaders⟩
  ∧ ∀ e, decode .request (encodeWith [7] oddHeaders.entries.reverse ++ encodeWith [] [])
    ≠ .ok e
  := by
  have hperm : oddHeaders.entries.reverse.Perm oddHeaders.entries := List.reverse_perm _
  have hdelimits := encodeWith_selfDelimiting.1 ⟨"localhost:1", none, [7], oddHeaders⟩ _ hperm
  refine ⟨hperm, hdelimits.cut _ _ (List.dropLast_prefix _) ?_, ?_, ?_⟩
  · intro h
    have hlength := congrArg List.length h
    simp [encodeWith] at hlength
  · rw [hdelimits.behind]
    exact ⟨rfl, by simp⟩
  · intro e h
    rw [hdelimits.behind] at h
    exact absurd (h.2 closeObject (by simp [encodeWith])) (by decide)

end StreamCall.Envelope
