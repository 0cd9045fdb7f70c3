import StreamCall.Proofs.Envelope.Reading

/-!
# Reading what was written

The document of a message is read back as the message, whatever its body and headers are and
in whatever order the headers are written (`decode_undoes_encodeWith`).  Nothing in a document
tells whether it holds a request or a response.
-/

namespace StreamCall.Envelope

open Json.Grammar

/-- A document of a body and of entries is read back, and of entries with the same name the
last one holds. -/
theorem decode_encodeWith (side : Side) (body : Bytes) (es : List (String × String)) :
  decode side (encodeWith body es) = .ok ⟨body, Headers.ofList es⟩
  := by
  have hdescribes : Describes (written body es).data ⟨body, Headers.ofList es⟩ := by
    rw [written_data]
    exact {
      names := by simp
      body := .text _ _ (encode_bodyText body)
      headers := .object es _ (Headers.get?_ofList es) }
  have hread := toOption_decode side (written body es)
  rw [envelopeOf?_eq_some_iff.mpr hdescribes, written_text] at hread
  cases hdecode : decode side (encodeWith body es) with
  | error f =>
    rw [hdecode] at hread
    cases hread
  | ok e =>
    rw [hdecode] at hread
    cases hread
    rfl

/-- Headers written in any order are read back. -/
theorem decode_encodeWith_of_perm
    (side : Side) (body : Bytes) {h : Headers} {es : List (String × String)}
    (hes : es.Perm h.entries) :
  decode side (encodeWith body es) = .ok ⟨body, h⟩
  := by
  rw [decode_encodeWith, Headers.ofList_of_perm hes]

/-- The order in which headers are written is one of their orders. -/
theorem writingOrder_perm (h : Headers) :
  (writingOrder h).Perm h.entries
  :=
  List.mergeSort_perm _ _

/-- The document of an envelope is read back. -/
theorem decode_encode (side : Side) (e : Envelope) :
  decode side (encode e) = .ok e
  :=
  decode_encodeWith_of_perm side e.body (writingOrder_perm e.headers)

/-- Reading undoes writing, for every order in which the headers are written, the one that is
used included; a request arrives without its address and timeout, and the documents of a
request and a response with the same body and headers are interchangeable. -/
theorem decode_undoes_encodeWith :
  (∀ (s : Response) (es : List (String × String)), es.Perm s.headers.entries →
    (decode .response (encodeWith s.body es)).map Envelope.response = .ok s)
  ∧ (∀ (r : Request) (es : List (String × String)), es.Perm r.headers.entries →
    (decode .request (encodeWith r.body es)).map Envelope.request
      = .ok { r with address := "", timeout := none })
  ∧ (∀ (r : Request) (s : Response), r.envelope = s.envelope →
    ∀ es : List (String × String), es.Perm r.headers.entries →
      (decode .response (encodeWith r.body es)).map Envelope.response = .ok s
      ∧ (decode .request (encodeWith s.body es)).map Envelope.request
        = .ok { r with address := "", timeout := none })
  ∧ ∀ e : Envelope, encode e = encodeWith e.body (writingOrder e.headers)
    ∧ (writingOrder e.headers).Perm e.headers.entries
  := by
  refine ⟨?_, ?_, ?_, ?_⟩
  · intro s es hes
    rw [decode_encodeWith_of_perm .response s.body hes]
    rfl
  · intro r es hes
    rw [decode_encodeWith_of_perm .request r.body hes]
    rfl
  · intro r s hrs es hes
    obtain ⟨hbody, hheaders⟩ : r.body = s.body ∧ r.headers = s.headers := by
      simpa [Request.envelope, Response.envelope] using hrs
    constructor
    · rw [decode_encodeWith_of_perm .response r.body hes, hbody, hheaders]
      rfl
    · rw [← hbody, decode_encodeWith_of_perm .request r.body hes]
      rfl
  · intro e
    exact ⟨rfl, writingOrder_perm e.headers⟩

/-- Headers with an empty name, characters that are escaped and characters beyond ASCII. -/
def oddHeaders : Headers :=
  .ofList [("", "\"\\"), ("\n\x01", "é😀"), ("x", "")]

theorem decode_undoes_encodeWith_oddHeaders :
  (oddHeaders.entries.reverse.Perm oddHeaders.entries
    ∧ (decode .response (encodeWith [0, 255] oddHeaders.entries.reverse)).map Envelope.response
      = .ok ⟨[0, 255], oddHeaders⟩)
  ∧ (decode .request (encodeWith [7] oddHeaders.entries.reverse)).map Envelope.request
    = .ok ⟨"", none, [7], oddHeaders⟩
  ∧ (decode .response (encodeWith [7] oddHeaders.entries)).map Envelope.response
    = .ok ⟨[7], oddHeaders⟩
  := by
  have hperm : oddHeaders.entries.reverse.Perm oddHeaders.entries := List.reverse_perm _
  refine ⟨⟨hperm, ?_⟩, ?_, ?_⟩
  · exact decode_undoes_encodeWith.1 ⟨[0, 255], oddHeaders⟩ _ hperm
  · exact decode_undoes_encodeWith.2.1 ⟨"localhost:1", none, [7], oddHeaders⟩ _ hperm
  · exact (decode_undoes_encodeWith.2.2.1 ⟨"localhost:1", none, [7], oddHeaders⟩
      ⟨[7], oddHeaders⟩ rfl _ (.refl _)).1

end StreamCall.Envelope
