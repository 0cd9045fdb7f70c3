import Mathlib.Data.List.Forall2
import StreamCall.Envelope.Document
import StreamCall.Proofs.Base64
import StreamCall.Proofs.Json.Grammar
import StreamCall.Proofs.Envelope.Headers

/-!
# What an envelope document says

`Describes` is the format of envelopes, stated on what the members of an object say: at most
one of them is the body and at most one the headers, each of the right shape, and all others
are free.  `envelopeOf?` computes the envelope that members describe, going through them in
their order (`envelopeOf?_eq_some_iff`).
-/

namespace StreamCall.Envelope

open Json.Grammar

/-! ### The format -/

/-- The values of the members of a name. -/
def named (name : String) (ms : List (Option String × Datum)) : List Datum :=
  (ms.filter (·.1 = some name)).map Prod.snd

/-- The members of an object that says each of the entries. -/
def entriesData (es : List (String × String)) : List (Option String × Datum) :=
  es.map fun e => (some e.1, .text (some e.2))

/-- The body that the values of `body` stand for: there is none, or one that is null or the
padded text of a byte string. -/
inductive IsBody : List Datum → Bytes → Prop where
  | absent : IsBody [] []
  | null : IsBody [.null] []
  | text (s : String) (b : Bytes) (h : Utf8.encode s = Base64.encode b) :
    IsBody [.text (some s)] b

/-- The headers that the values of `headers` stand for: there is none, or one that is null or
an object of strings, in which the last value of a name holds. -/
inductive IsHeaders : List Datum → Headers → Prop where
  | absent : IsHeaders [] .empty
  | null : IsHeaders [.null] .empty
  | object (es : List (String × String)) (h : Headers)
    (hlast : ∀ name, h.get? name = Headers.last? es name) :
    IsHeaders [.object (entriesData es)] h

/-- Whether the members of an object describe an envelope. -/
structure Describes (ms : List (Option String × Datum)) (e : Envelope) : Prop where
  names : ∀ m ∈ ms, m.1.isSome = true
  body : IsBody (named "body" ms) e.body
  headers : IsHeaders (named "headers" ms) e.headers

/-- Whether two values stand for the same headers: they are equal, or objects of strings that
agree on the last value of every name. -/
inductive SameHeaders : Datum → Datum → Prop where
  | refl (d : Datum) : SameHeaders d d
  | object {es es' : List (String × String)}
    (hlast : ∀ name, Headers.last? es name = Headers.last? es' name) :
    SameHeaders (.object (entriesData es)) (.object (entriesData es'))

/-- Whether the members of two objects differ in their order and in members other than body and
headers only. All names have to be text. -/
structure SameEnvelope (ms ms' : List (Option String × Datum)) : Prop where
  names : ∀ m ∈ ms, m.1.isSome = true
  names' : ∀ m ∈ ms', m.1.isSome = true
  body : (named "body" ms).Perm (named "body" ms')
  headers : ∃ ds, (named "headers" ms).Perm ds
    ∧ List.Forall₂ SameHeaders ds (named "headers" ms')

/-! ### Its computation -/

/-- The text that a value says. -/
def stringOf? : Datum → Option String
  | .text s => s
  | _ => none

/-- The bytes that the body says. -/
def bodyOf? : Datum → Option Bytes
  | .null => some []
  | .text s => s.bind fun s => (Base64.decode (Utf8.encode s)).toOption
  | _ => none

/-- The headers that members say behind those already known. -/
def entriesOf? : Headers → List (Option String × Datum) → Option Headers
  | h, [] => some h
  | h, (name?, d) :: ms =>
    name?.bind fun name => (stringOf? d).bind fun value => entriesOf? (h.insert name value) ms

/-- The headers that a value says. -/
def headersOf? : Datum → Option Headers
  | .null => some .empty
  | .object ms => entriesOf? .empty ms
  | _ => none

/-- What members say behind those already known. -/
def membersOf? : Members → List (Option String × Datum) → Option Members
  | known, [] => some known
  | known, (name?, d) :: ms =>
    name?.bind fun name =>
      if name = "body" then
        if known.body.isSome then none
        else (bodyOf? d).bind fun body => membersOf? { known with body := some body } ms
      else if name = "headers" then
        if known.headers.isSome then none
        else (headersOf? d).bind fun headers =>
          membersOf? { known with headers := some headers } ms
      else membersOf? known ms

/-- The envelope of members, each of which may be missing. -/
def Members.envelope (m : Members) : Envelope :=
  ⟨m.body.getD [], m.headers.getD .empty⟩

/-- The envelope that the members of an object say. -/
def envelopeOf? (ms : List (Option String × Datum)) : Option Envelope :=
  (membersOf? ⟨none, none⟩ ms).map Members.envelope

/-! ### The computation meets the format -/

theorem bodyOf?_eq_some_iff {d : Datum} {b : Bytes} :
  bodyOf? d = some b ↔ IsBody [d] b
  := by
  constructor
  · intro h
    cases d with
    | null =>
      cases h
      exact .null
    | text s =>
      obtain ⟨s, rfl, hs⟩ := Option.bind_eq_some_iff.mp h
      apply IsBody.text
      rw [← Base64.decode_eq_ok_iff]
      cases hdecode : Base64.decode (Utf8.encode s) with
      | error f =>
        rw [hdecode] at hs
        cases hs
      | ok b' =>
        rw [hdecode] at hs
        cases hs
        rfl
    | boolean | number | list | object => cases h
  · intro h
    cases h with
    | null => rfl
    | text s b h =>
      rw [bodyOf?, Option.bind_some, h, Base64.decode_encode]
      rfl

theorem entriesOf?_eq_some_iff {h g : Headers} {ms : List (Option String × Datum)} :
  entriesOf? h ms = some g
    ↔ ∃ es, ms = entriesData es ∧ g = es.foldl (fun h e => h.insert e.1 e.2) h
  := by
  induction ms generalizing h with
  | nil =>
    constructor
    · intro hg
      cases hg
      exact ⟨[], rfl, rfl⟩
    · rintro ⟨es, hes, rfl⟩
      cases es with
      | nil => rfl
      | cons e es => cases hes
  | cons m ms ih =>
    obtain ⟨name?, d⟩ := m
    constructor
    · intro hg
      obtain ⟨name, rfl, hname⟩ := Option.bind_eq_some_iff.mp hg
      obtain ⟨value, hvalue, hrest⟩ := Option.bind_eq_some_iff.mp hname
      obtain ⟨es, rfl, rfl⟩ := ih.mp hrest
      refine ⟨(name, value) :: es, ?_, rfl⟩
      cases d with
      | text s =>
        rw [stringOf?] at hvalue
        rw [hvalue]
        rfl
      | null | boolean | number | list | object => cases hvalue
    · rintro ⟨es, hes, rfl⟩
      cases es with
      | nil => cases hes
      | cons e es =>
        cases hes
        exact ih.mpr ⟨es, rfl, rfl⟩

theorem headersOf?_eq_some_iff {d : Datum} {h : Headers} :
  headersOf? d = some h ↔ IsHeaders [d] h
  := by
  constructor
  · intro hd
    cases d with
    | null =>
      cases hd
      exact .null
    | object ms =>
      obtain ⟨es, rfl, rfl⟩ := entriesOf?_eq_some_iff.mp hd
      apply IsHeaders.object
      exact Headers.get?_ofList es
    | boolean | number | text | list => cases hd
  · intro hd
    cases hd with
    | null => rfl
    | object es h hlast =>
      apply entriesOf?_eq_some_iff.mpr
      refine ⟨es, rfl, ?_⟩
      apply Headers.ext_get?
      intro name
      rw [hlast, ← Headers.get?_ofList]
      rfl

/-- What is known of a member after all values of its name: what was known before, or what the
only value says. -/
inductive IsField {α : Type} (meaning : Datum → Option α) :
    Option α → List Datum → Option α → Prop where
  | kept (known : Option α) : IsField meaning known [] known
  | found {d : Datum} {x : α} (h : meaning d = some x) : IsField meaning none [d] (some x)

section Field

variable {α : Type} {meaning : Datum → Option α} {known result : Option α}

theorem isField_nil_iff :
  IsField meaning known [] result ↔ result = known
  := by
  constructor
  · intro h
    cases h
    rfl
  · rintro rfl
    exact .kept _

theorem isField_cons_iff {d : Datum} {ds : List Datum} :
  IsField meaning known (d :: ds) result
    ↔ known = none ∧ ∃ x, meaning d = some x ∧ IsField meaning (some x) ds result
  := by
  constructor
  · intro h
    cases h with
    | found h => exact ⟨rfl, _, h, .kept _⟩
  · rintro ⟨rfl, x, hx, h⟩
    cases h with
    | kept => exact .found hx

end Field

theorem named_cons_self (name : String) (d : Datum) (ms : List (Option String × Datum)) :
  named name ((some name, d) :: ms) = d :: named name ms
  := by
  simp [named]

theorem named_cons_of_ne {name other : String} (h : other ≠ name) (d : Datum)
    (ms : List (Option String × Datum)) :
  named name ((some other, d) :: ms) = named name ms
  := by
  simp [named, h]

/-- Members are gone through to their end if and only if each has a name and each of the two
that count comes at most once and says something. -/
theorem membersOf?_eq_some_iff {known m : Members} {ms : List (Option String × Datum)} :
  membersOf? known ms = some m
    ↔ (∀ m ∈ ms, m.1.isSome = true)
      ∧ IsField bodyOf? known.body (named "body" ms) m.body
      ∧ IsField headersOf? known.headers (named "headers" ms) m.headers
  := by
  induction ms generalizing known with
  | nil =>
    simp only [named, List.filter_nil, List.map_nil, isField_nil_iff, List.not_mem_nil,
      false_implies, implies_true, true_and]
    constructor
    · intro h
      cases h
      exact ⟨rfl, rfl⟩
    · rintro ⟨hbody, hheaders⟩
      obtain ⟨body, headers⟩ := m
      cases hbody
      cases hheaders
      rfl
  | cons x ms ih =>
    obtain ⟨name?, d⟩ := x
    cases name? with
    | none => simp [membersOf?]
    | some name =>
      rw [membersOf?, Option.bind_some, List.forall_mem_cons]
      by_cases hbody : name = "body"
      · subst hbody
        rw [if_pos rfl, named_cons_self, isField_cons_iff, named_cons_of_ne (by decide)]
        cases hknown : known.body with
        | some b => simp
        | none =>
          simp only [Option.isSome_none, Bool.false_eq_true, if_false, Option.bind_eq_some_iff, ih]
          constructor
          · rintro ⟨body, hd, hnames, hbody, hheaders⟩
            exact ⟨⟨rfl, hnames⟩, ⟨trivial, body, hd, hbody⟩, hheaders⟩
          · rintro ⟨⟨-, hnames⟩, ⟨-, body, hd, hbody⟩, hheaders⟩
            exact ⟨body, hd, hnames, hbody, hheaders⟩
      by_cases hheaders : name = "headers"
      · subst hheaders
        rw [if_neg (by decide), if_pos rfl, named_cons_self, isField_cons_iff,
          named_cons_of_ne (by decide)]
        cases hknown : known.headers with
        | some h => simp
        | none =>
          simp only [Option.isSome_none, Bool.false_eq_true, if_false, Option.bind_eq_some_iff, ih]
          constructor
          · rintro ⟨headers, hd, hnames, hbody, hheaders⟩
            exact ⟨⟨rfl, hnames⟩, hbody, trivial, headers, hd, hheaders⟩
          · rintro ⟨⟨-, hnames⟩, hbody, -, headers, hd, hheaders⟩
            exact ⟨headers, hd, hnames, hbody, hheaders⟩
      · rw [if_neg hbody, if_neg hheaders, named_cons_of_ne hbody, named_cons_of_ne hheaders, ih]
        simp

theorem isField_body_iff {ds : List Datum} {b : Bytes} :
  (∃ body, IsField bodyOf? none ds body ∧ body.getD [] = b) ↔ IsBody ds b
  := by
  constructor
  · rintro ⟨body, h, rfl⟩
    cases h with
    | kept => exact .absent
    | found h => exact bodyOf?_eq_some_iff.mp h
  · intro h
    cases h with
    | absent => exact ⟨none, .kept _, rfl⟩
    | null => exact ⟨some [], .found rfl, rfl⟩
    | text s b h => exact ⟨some b, .found (bodyOf?_eq_some_iff.mpr (.text s b h)), rfl⟩

theorem isField_headers_iff {ds : List Datum} {h : Headers} :
  (∃ headers, IsField headersOf? none ds headers ∧ headers.getD .empty = h) ↔ IsHeaders ds h
  := by
  constructor
  · rintro ⟨headers, hfield, rfl⟩
    cases hfield with
    | kept => exact .absent
    | found hd => exact headersOf?_eq_some_iff.mp hd
  · intro hd
    cases hd with
    | absent => exact ⟨none, .kept _, rfl⟩
    | null => exact ⟨some .empty, .found rfl, rfl⟩
    | object es h hlast =>
      exact ⟨some h, .found (headersOf?_eq_some_iff.mpr (.object es h hlast)), rfl⟩

/-- Members say an envelope if and only if they describe it. -/
theorem envelopeOf?_eq_some_iff {ms : List (Option String × Datum)} {e : Envelope} :
  envelopeOf? ms = some e ↔ Describes ms e
  := by
  rw [envelopeOf?, Option.map_eq_some_iff]
  constructor
  · rintro ⟨m, hm, rfl⟩
    obtain ⟨hnames, hbody, hheaders⟩ := membersOf?_eq_some_iff.mp hm
    exact {
      names := hnames
      body := isField_body_iff.mp ⟨m.body, hbody, rfl⟩
      headers := isField_headers_iff.mp ⟨m.headers, hheaders, rfl⟩ }
  · rintro ⟨hnames, hbody, hheaders⟩
    obtain ⟨body, hbody, hb⟩ := isField_body_iff.mpr hbody
    obtain ⟨headers, hheaders, hh⟩ := isField_headers_iff.mpr hheaders
    refine ⟨⟨body, headers⟩, membersOf?_eq_some_iff.mpr ⟨hnames, hbody, hheaders⟩, ?_⟩
    rw [Members.envelope, hb, hh]

/-! ### What does not count -/

theorem IsBody.of_perm {ds ds' : List Datum} {b : Bytes} (h : IsBody ds b) (hperm : ds.Perm ds') :
  IsBody ds' b
  := by
  cases h with
  | absent =>
    rw [List.nil_perm.mp hperm]
    exact .absent
  | null =>
    rw [← List.singleton_perm.mp hperm]
    exact .null
  | text s b h =>
    rw [← List.singleton_perm.mp hperm]
    exact .text s b h

theorem IsHeaders.of_perm
    {ds ds' : List Datum} {h : Headers} (hds : IsHeaders ds h) (hperm : ds.Perm ds') :
  IsHeaders ds' h
  := by
  cases hds with
  | absent =>
    rw [List.nil_perm.mp hperm]
    exact .absent
  | null =>
    rw [← List.singleton_perm.mp hperm]
    exact .null
  | object es h hlast =>
    rw [← List.singleton_perm.mp hperm]
    exact .object es h hlast

theorem entriesData_injective {es es' : List (String × String)}
    (h : entriesData es = entriesData es') :
  es = es'
  := by
  apply List.map_injective_iff.mpr _ h
  rintro ⟨name, value⟩ ⟨name', value'⟩ heq
  cases heq
  rfl

theorem isHeaders_object_iff {es : List (String × String)} {h : Headers} :
  IsHeaders [.object (entriesData es)] h ↔ ∀ name, h.get? name = Headers.last? es name
  := by
  constructor
  · intro hd
    obtain ⟨es', hes', rfl⟩ := entriesOf?_eq_some_iff.mp (headersOf?_eq_some_iff.mpr hd)
    rw [entriesData_injective hes']
    exact Headers.get?_ofList es'
  · exact IsHeaders.object es h

theorem SameHeaders.isHeaders_iff {d d' : Datum} (hsame : SameHeaders d d') (h : Headers) :
  IsHeaders [d] h ↔ IsHeaders [d'] h
  := by
  cases hsame with
  | refl => rfl
  | object hlast => simp only [isHeaders_object_iff, hlast]

/-- Values that stand for the same headers one by one stand for the same headers together. -/
theorem isHeaders_iff_of_same
    {ds ds' : List Datum} (hsame : List.Forall₂ SameHeaders ds ds') (h : Headers) :
  IsHeaders ds h ↔ IsHeaders ds' h
  := by
  match hsame with
  | .nil => rfl
  | .cons hd .nil => exact hd.isHeaders_iff h
  | .cons _ (.cons _ _) =>
    constructor
    · intro h
      cases h
    · intro h
      cases h

/-- What does not count makes no difference. -/
theorem SameEnvelope.describes_iff
    {ms ms' : List (Option String × Datum)} (h : SameEnvelope ms ms') (e : Envelope) :
  Describes ms e ↔ Describes ms' e
  := by
  obtain ⟨ds, hperm, hsame⟩ := h.headers
  constructor
  · intro hd
    exact {
      names := h.names'
      body := hd.body.of_perm h.body
      headers := (isHeaders_iff_of_same hsame _).mp (hd.headers.of_perm hperm) }
  · intro hd
    exact {
      names := h.names
      body := hd.body.of_perm h.body.symm
      headers := ((isHeaders_iff_of_same hsame _).mpr hd.headers).of_perm hperm.symm }

end StreamCall.Envelope
