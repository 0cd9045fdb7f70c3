import StreamCall.Proofs.Json.Passing
import StreamCall.Proofs.Envelope.Meaning
import StreamCall.Proofs.Envelope.Writing

/-!
# Reading an envelope document

The reader of envelopes reads every object document as the envelope that its members
describe, and refuses those that describe none (`toOption_decode`).  Each of its parts reads the
text of a value as what the value says, and leaves what follows it.
-/

namespace StreamCall.Envelope

open Json Json.Grammar

/-! ### The first byte of a value -/

/-- How a value begins: the first byte tells null, a string and an object from all others,
which say no part of an envelope. -/
inductive Opening : Value → Bytes → Prop where
  | null : Opening .null (0x6E :: ull)
  | string (l : Literal) : Opening (.string l) (quote :: (innerText l ++ [quote]))
  | object (ms : List (Member Value)) (within : List Blank) :
    Opening (.object ms within)
      (openObject :: (membersText true ms ++ (blanksText within ++ [closeObject])))
  | other {v : Value} {b : UInt8} (bs : Bytes) (hnull : b ≠ 0x6E) (hquote : b ≠ quote)
    (hobject : b ≠ openObject) (hstring : stringOf? v.datum = none)
    (hbody : bodyOf? v.datum = none) (hheaders : headersOf? v.datum = none) :
    Opening v (b :: bs)

theorem opening (v : Value) :
  Opening v v.text
  := by
  cases v with
  | null => exact .null
  | boolean b =>
    cases b with
    | true => exact .other rue (by decide) (by decide) (by decide) rfl rfl rfl
    | false => exact .other alse (by decide) (by decide) (by decide) rfl rfl rfl
  | number n =>
    rw [Value.text]
    rcases exists_numeral_text n with h | ⟨b, bs, hb, h, -⟩
    · rw [h]
      exact .other _ (by decide) (by decide) (by decide) rfl rfl rfl
    · have hne : ∀ c, isDigit c = false → b ≠ c := by
        rintro c hc rfl
        rw [hb] at hc
        cases hc
      rw [h]
      exact .other bs (hne _ rfl) (hne _ rfl) (hne _ rfl) rfl rfl rfl
  | string l =>
    rw [Value.text]
    exact .string l
  | list items within =>
    rw [Value.text]
    refine .other _ (by decide) (by decide) (by decide) ?_ ?_ ?_ <;> rw [Value.datum] <;> rfl
  | object ms within =>
    rw [Value.text]
    exact .object ms within

/-! ### The parts of an envelope -/

/-- A reader that reads as a meaning either fails where there is none, or leaves the rest. -/
theorem read_cases
    {α : Type} {x : Scan α} {o : Option α} {rest : Bytes} (h : x.toOption = o.map (·, rest)) :
  (∃ f, x = .error f ∧ o = none) ∨ ∃ a, x = .ok (a, rest) ∧ o = some a
  := by
  cases x with
  | error f =>
    cases o with
    | none => exact .inl ⟨f, rfl, rfl⟩
    | some a => cases h
  | ok r =>
    cases o with
    | none => cases h
    | some a =>
      cases h
      exact .inr ⟨a, rfl, rfl⟩

theorem toOption_unexpected {α : Type} (expected : String) (b : UInt8) (rest : Bytes) :
  (unexpected (α := α) expected b rest).toOption = none
  := by
  have hbind : ∀ {β : Type} (x : Except Fault β) (found : β → Found) (left : β → Bytes),
      (x >>= fun y => faultAt (α := α) (.invalidType (found y) expected) (left y)).toOption
        = none := by
    intro β x found left
    cases x <;> rfl
  unfold unexpected
  simp only
  split
  · exact hbind _ _ _
  split
  · exact hbind _ _ _
  split
  · exact hbind _ _ _
  split
  · exact hbind _ _ _
  split
  · exact hbind _ _ _
  split
  · exact hbind _ _ _
  split
  · rfl
  split
  · rfl
  · rfl


/-- A string is read as what it says, and no other value is. -/
theorem toOption_readString (before : List Blank) (v : Value) (rest : Bytes) :
  (readString (blanksText before ++ (v.text ++ rest))).toOption
    = (stringOf? v.datum).map (·, rest)
  := by
  have hopen := opening v
  rw [readString, skipSpace_blanksText, skipSpace_text]
  generalize v.text = text at hopen
  cases hopen with
  | null =>
    simp only [List.cons_append, if_neg (show (0x6E : UInt8) ≠ quote by decide)]
    apply toOption_unexpected
  | string l =>
    simp only [List.cons_append, if_true, List.append_assoc, List.nil_append]
    rw [toOption_string, Value.datum, stringOf?]
  | object ms within =>
    simp only [List.cons_append, if_neg (show openObject ≠ quote by decide)]
    rw [toOption_unexpected, Value.datum]
    rfl
  | other bs hnull hquote hobject hstring =>
    simp only [List.cons_append, if_neg hquote]
    rw [toOption_unexpected, hstring]
    rfl

/-- The body of a string is read as what the string says. -/
theorem toOption_readBody_of_ne_null
    (behind : Bytes → Bytes) (before : List Blank) {v : Value} {b : UInt8} {bs : Bytes}
    (hv : v.text = b :: bs) (hb : b ≠ 0x6E) (rest : Bytes) :
  (readBody behind (blanksText before ++ (v.text ++ rest))).toOption
    = ((stringOf? v.datum).bind fun s => (Base64.decode (Utf8.encode s)).toOption).map (·, rest)
  := by
  have hstring := toOption_readString [] v rest
  rw [show blanksText [] = [] from rfl, List.nil_append] at hstring
  rw [readBody, readOptionalString]
  simp only [skipSpace_blanksText, skipSpace_text]
  rw [if_neg]
  · rcases read_cases hstring with ⟨f, hread, hs⟩ | ⟨s, hread, hs⟩
    · rw [hread, hs]
      rfl
    · rw [hread, hs, Option.bind_some]
      simp only
      cases Base64.decode (Utf8.encode s) <;> rfl
  · rw [hv]
    simpa using hb

/-- The body is read as what it says, wherever a fault in its text is reported. -/
theorem toOption_readBody
    (behind : Bytes → Bytes) (before : List Blank) (v : Value) (rest : Bytes) :
  (readBody behind (blanksText before ++ (v.text ++ rest))).toOption
    = (bodyOf? v.datum).map (·, rest)
  := by
  have hopen := opening v
  generalize htext : v.text = text at hopen
  cases hopen with
  | null =>
    rw [readBody, readOptionalString]
    simp only [skipSpace_blanksText, List.cons_append,
      skipSpace_cons (show isSpace 0x6E = false by decide), List.head?_cons, if_true,
      List.tail_cons, word_append]
    rfl
  | string l =>
    rw [← htext, toOption_readBody_of_ne_null behind before htext (by decide), Value.datum]
    rfl
  | object ms within =>
    rw [← htext, toOption_readBody_of_ne_null behind before htext (by decide), Value.datum]
    rfl
  | other bs hnull hquote hobject hstring hbody =>
    rw [← htext, toOption_readBody_of_ne_null behind before htext hnull, hstring, hbody]
    rfl

/-! ### Members -/

/-- What is left of an object in front of some of its members; `first` tells that nothing of it
stands before them. -/
def objectLeft (first : Bool) (ws : List Blank) (ms : List (Member Value)) (within : List Blank) :
    Bytes :=
  blanksText ws ++ (membersText first ms ++ (blanksText within ++ [closeObject]))

theorem endsValue_objectLeft
    (ws : List Blank) (ms : List (Member Value)) (within : List Blank) (rest : Bytes) :
  EndsValue (objectLeft false ws ms within ++ rest)
  :=
  endsValue_behindMember ws ms within rest

/-- Behind the last member stands the closing bracket. -/
theorem nextMember_nil (first : Bool) (ws within : List Blank) (rest : Bytes) :
  nextMember first (objectLeft first ws [] within ++ rest) = .ok (false, closeObject :: rest)
  := by
  rw [nextMember, objectLeft, membersText, List.nil_append, List.append_assoc,
    skipSpace_blanksText, List.append_assoc, skipSpace_blanksText, List.singleton_append,
    skipSpace_cons (by decide)]
  rfl

/-- What stands behind the opening quote of the name of a member. -/
def behindQuote (name : Literal) (behind : List Blank) (value : Padded Value)
    (ms : List (Member Value)) (within : List Blank) (rest : Bytes) : Bytes :=
  innerText name ++ quote :: (blanksText behind ++ colon :: (blanksText value.before
    ++ (value.it.text ++ (objectLeft false value.after ms within ++ rest))))

theorem objectLeft_cons
    (first : Bool) (ws before behind : List Blank) (name : Literal) (value : Padded Value)
    (ms : List (Member Value)) (within : List Blank) (rest : Bytes) :
  objectLeft first ws (⟨⟨before, name, behind⟩, value⟩ :: ms) within ++ rest
    = blanksText ws ++ (separator first ++ (blanksText before
      ++ quote :: behindQuote name behind value ms within rest))
  := by
  obtain ⟨before', v, after⟩ := value
  simp [objectLeft, membersText, literalText, behindQuote]

/-- A member is found up to the opening quote of its name. -/
theorem nextMember_cons
    (first : Bool) (ws before behind : List Blank) (name : Literal) (value : Padded Value)
    (ms : List (Member Value)) (within : List Blank) (rest : Bytes) :
  nextMember first (objectLeft first ws (⟨⟨before, name, behind⟩, value⟩ :: ms) within ++ rest)
    = .ok (true, behindQuote name behind value ms within rest)
  := by
  have hquote : isSpace quote = false := by decide
  rw [nextMember, objectLeft_cons, skipSpace_blanksText]
  cases first with
  | true =>
    simp only [separator, if_true, List.nil_append, skipSpace_blanksText, skipSpace_cons hquote]
    rfl
  | false =>
    simp only [separator, Bool.false_eq_true, if_false, List.singleton_append,
      skipSpace_cons (show isSpace comma = false by decide), skipSpace_blanksText,
      skipSpace_cons hquote]
    rfl

/-- The name of a member is read as what it says, up to the colon. -/
theorem toOption_string_behindQuote
    (name : Literal) (behind : List Blank) (value : Padded Value) (ms : List (Member Value))
    (within : List Blank) (rest : Bytes) :
  (Json.string (behindQuote name behind value ms within rest)).toOption
    = (value? name).map (·, blanksText behind ++ colon :: (blanksText value.before
      ++ (value.it.text ++ (objectLeft false value.after ms within ++ rest))))
  :=
  toOption_string name _

theorem readColon_blanksText (ws : List Blank) (rest : Bytes) :
  readColon (blanksText ws ++ colon :: rest) = .ok rest
  := by
  rw [readColon, skipSpace_blanksText, skipSpace_cons (by decide)]
  rfl

theorem endObject_cons (rest : Bytes) :
  endObject (closeObject :: rest) = .ok rest
  := by
  rw [endObject, skipSpace_cons (by decide)]
  rfl

/-- An object has at least one byte for each of its members. -/
theorem length_le_objectLeft
    (first : Bool) (ws : List Blank) (ms : List (Member Value)) (within : List Blank)
    (rest : Bytes) :
  ms.length ≤ (objectLeft first ws ms within ++ rest).length
  := by
  induction ms generalizing first ws with
  | nil => simp
  | cons m ms ih =>
    obtain ⟨⟨before, name, behind⟩, value⟩ := m
    have := ih false value.after
    rw [objectLeft_cons, behindQuote]
    simp only [List.length_append, List.length_cons] at this ⊢
    omega

/-- The headers are read as what their members say. -/
theorem toOption_readEntries
    {n : Nat} (first : Bool) (h : Headers) (ws : List Blank) (ms : List (Member Value))
    (within : List Blank) (rest : Bytes) (hn : ms.length < n) :
  (readEntries n first h (objectLeft first ws ms within ++ rest)).toOption
    = (entriesOf? h (membersData ms)).map (·, closeObject :: rest)
  := by
  induction ms generalizing n first h ws with
  | nil =>
    cases n with
    | zero => cases hn
    | succ n =>
      rw [readEntries, nextMember_nil]
      rfl
  | cons m ms ih =>
    obtain ⟨⟨before, name, behind⟩, before', v, after⟩ := m
    cases n with
    | zero => cases hn
    | succ n =>
      rw [readEntries, nextMember_cons, membersData, entriesOf?]
      simp only
      rcases read_cases (toOption_string_behindQuote name behind ⟨before', v, after⟩ ms within rest)
        with ⟨f, hread, hname⟩ | ⟨s, hread, hname⟩
      · rw [hread, hname]
        rfl
      rw [hread, hname, Option.bind_some]
      simp only [readColon_blanksText]
      rcases read_cases (toOption_readString before' v
        (objectLeft false after ms within ++ rest)) with ⟨f, hread, hvalue⟩ | ⟨value, hread, hvalue⟩
      · rw [hread, hvalue]
        rfl
      rw [hread, hvalue, Option.bind_some]
      apply ih
      rw [List.length_cons] at hn
      omega

/-- The headers are read as what they say. -/
theorem toOption_readHeaders (before : List Blank) (v : Value) (rest : Bytes) :
  (readHeaders (blanksText before ++ (v.text ++ rest))).toOption
    = (headersOf? v.datum).map (·, rest)
  := by
  have hopen := opening v
  rw [readHeaders, skipSpace_blanksText, skipSpace_text]
  generalize v.text = text at hopen
  cases hopen with
  | null =>
    simp only [List.cons_append, if_true, word_append]
    rfl
  | string l =>
    simp only [List.cons_append, if_neg (show quote ≠ 0x6E by decide),
      if_neg (show quote ≠ openObject by decide)]
    rw [toOption_unexpected, Value.datum]
    rfl
  | object ms within =>
    have htext : membersText true ms ++ (blanksText within ++ [closeObject])
      = objectLeft true [] ms within := rfl
    rw [Value.datum, headersOf?, htext]
    simp only [List.cons_append, if_neg (show openObject ≠ 0x6E by decide), if_true]
    have hlength := length_le_objectLeft true [] ms within rest
    rcases read_cases (toOption_readEntries true .empty [] ms within rest
      (Nat.lt_succ_of_le hlength)) with ⟨f, hread, hentries⟩ | ⟨h, hread, hentries⟩
    · rw [hread, hentries]
      rfl
    · rw [hread, hentries]
      simp only [endObject_cons]
      rfl
  | other bs hnull hquote hobject hstring hbody hheaders =>
    simp only [List.cons_append, if_neg hnull, if_neg hobject]
    rw [toOption_unexpected, hheaders]
    rfl

/-! ### Envelopes -/

/-- The members of an envelope are read as what they say. -/
theorem toOption_readMembers
    {n : Nat} (first : Bool) (known : Members) (ws : List Blank) (ms : List (Member Value))
    (within : List Blank) (rest : Bytes) (hn : ms.length < n) :
  (readMembers n first known (objectLeft first ws ms within ++ rest)).toOption
    = (membersOf? known (membersData ms)).map (·, closeObject :: rest)
  := by
  induction ms generalizing n first known ws with
  | nil =>
    cases n with
    | zero => cases hn
    | succ n =>
      rw [readMembers, nextMember_nil]
      rfl
  | cons m ms ih =>
    obtain ⟨⟨before, name, behind⟩, before', v, after⟩ := m
    cases n with
    | zero => cases hn
    | succ n =>
      rw [List.length_cons, Nat.succ_lt_succ_iff] at hn
      rw [readMembers, nextMember_cons, membersData, membersOf?]
      simp only
      rcases read_cases (toOption_string_behindQuote name behind ⟨before', v, after⟩ ms within rest)
        with ⟨f, hread, hname⟩ | ⟨s, hread, hname⟩
      · rw [hread, hname]
        rfl
      rw [hread, hname, Option.bind_some]
      simp only [readColon_blanksText]
      split
      · split
        · rfl
        rcases read_cases (toOption_readBody behindObject before' v
          (objectLeft false after ms within ++ rest)) with ⟨f, hread, hbody⟩ | ⟨b, hread, hbody⟩
        · rw [hread, hbody]
          rfl
        rw [hread, hbody, Option.bind_some]
        apply ih _ _ _ hn
      split
      · split
        · rfl
        rcases read_cases (toOption_readHeaders before' v
          (objectLeft false after ms within ++ rest))
          with ⟨f, hread, hheaders⟩ | ⟨h, hread, hheaders⟩
        · rw [hread, hheaders]
          rfl
        rw [hread, hheaders, Option.bind_some]
        apply ih _ _ _ hn
      · rw [skip_text before' v (endsValue_objectLeft after ms within rest)]
        apply ih _ _ _ hn

/-- An object document is read as what its members say. -/
theorem toOption_decode (side : Side) (d : ObjectDocument) :
  (decode side d.text).toOption = envelopeOf? d.data
  := by
  obtain ⟨before, ms, within, after⟩ := d
  have htext : ObjectDocument.text ⟨before, ms, within, after⟩
      = blanksText before ++ openObject :: (objectLeft true [] ms within ++ blanksText after) := by
    simp [ObjectDocument.text, Value.text, objectLeft, blanksText]
  have hspace : skipSpace (blanksText after) = [] := by
    rw [← List.append_nil (blanksText after), skipSpace_blanksText]
    rfl
  have hlength := length_le_objectLeft true [] ms within (blanksText after)
  rw [decode, read, htext, skipSpace_blanksText, skipSpace_cons (by decide)]
  simp only [if_true, readObject, ObjectDocument.data, envelopeOf?]
  rcases read_cases (toOption_readMembers true ⟨none, none⟩ [] ms within (blanksText after)
    (Nat.lt_succ_of_le hlength)) with ⟨f, hread, hmembers⟩ | ⟨m, hread, hmembers⟩
  · rw [hread, hmembers]
    rfl
  · rw [hread, hmembers]
    simp only [endObject_cons, hspace]
    rfl

/-- Object documents are read exactly as their members describe envelopes, whichever kind of
message is expected, and what does not count makes no difference. -/
theorem decode_object_eq_ok_iff_describes :
  (∀ (side : Side) (d : ObjectDocument) (e : Envelope),
    decode side d.text = .ok e ↔ Describes d.data e)
  ∧ ∀ (side side' : Side) (d d' : ObjectDocument), SameEnvelope d.data d'.data →
    (decode side d.text).toOption = (decode side' d'.text).toOption
  := by
  constructor
  · intro side d e
    rw [← envelopeOf?_eq_some_iff, ← toOption_decode side d]
    cases decode side d.text with
    | error f => simp [Except.toOption]
    | ok e' => simp [Except.toOption]
  · intro side side' d d' hsame
    rw [toOption_decode, toOption_decode]
    apply Option.ext
    intro e
    rw [envelopeOf?_eq_some_iff, envelopeOf?_eq_some_iff, hsame.describes_iff]

/-- Members in another order, with blanks, an escape in a name and a member that does not count
in front. -/
def respelled : ObjectDocument where
  before := [.tab]
  members := [
    writtenMember "timeout" (.list [⟨[], .object [] [], [.space]⟩] []),
    ⟨⟨[.space], spelled "headers", [.space]⟩,
      ⟨[.lineFeed], .object [writtenEntry ("a", "2")] [.space], []⟩⟩,
    ⟨⟨[], .unit ⟨lowerDigit 0, lowerDigit 0, lowerDigit 6, lowerDigit 2⟩ :: spelled "ody", []⟩,
      ⟨[], .string (spelled "aGk="), []⟩⟩]
  within := []
  after := [.carriageReturn]

theorem respelled_data :
  respelled.data
    = [(some "timeout", .list [.object []]), (some "headers", .object (entriesData [("a", "2")])),
      (some "body", .text (some (bodyText [0x68, 0x69])))]
  := by
  have hname : value? (.unit ⟨lowerDigit 0, lowerDigit 0, lowerDigit 6, lowerDigit 2⟩
      :: spelled "ody") = some "body" := by
    decide
  have hbody : bodyText [0x68, 0x69] = "aGk=" := by
    decide
  have hheaders := datum_writtenEntries [("a", "2")] [.space]
  rw [List.map_cons, List.map_nil] at hheaders
  rw [respelled, ObjectDocument.data, membersData_writtenMember, membersData, membersData, hheaders,
    datum_spelled, value?_spelled, hname, hbody]
  rfl

theorem decode_respelled :
  SameEnvelope (written [0x68, 0x69] [("a", "1"), ("a", "2")]).data respelled.data
  ∧ (decode .request (written [0x68, 0x69] [("a", "1"), ("a", "2")]).text).toOption
    = (decode .response respelled.text).toOption
  := by
  have hlast : ∀ name, Headers.last? [("a", "1"), ("a", "2")] name
      = Headers.last? [("a", "2")] name := by
    intro name
    rw [← List.singleton_append, Headers.last?_append, Headers.last?_singleton,
      Headers.last?_singleton]
    by_cases h : name = "a" <;> simp [h]
  have hsame : SameEnvelope (written [0x68, 0x69] [("a", "1"), ("a", "2")]).data
      respelled.data := by
    rw [written_data, respelled_data]
    exact {
      names := by simp
      names' := by simp
      body := by simp [named]
      headers := ⟨_, .refl _, .cons (.object hlast) .nil⟩ }
  exact ⟨hsame, decode_object_eq_ok_iff_describes.2 _ _ _ _ hsame⟩

end StreamCall.Envelope
