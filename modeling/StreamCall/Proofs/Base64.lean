import StreamCall.Base64

/-!
# The canonical text of a byte string

Base64 texts are canonical: `decode` accepts a text if and only if it is the one that
`encode` writes for the byte string it gives back (`decode_eq_ok_iff`).
-/

namespace StreamCall.Base64

/-! ### Symbols -/

theorem value?_symbol {n : Nat} (h : n < 64) :
  value? (symbol n) = some n
  := by
  revert n
  decide

theorem symbol_ne_pad {n : Nat} (h : n < 64) :
  symbol n ≠ pad
  := by
  revert n
  decide

theorem eq_symbol_of_value? {b : UInt8} {v : Nat} (h : value? b = some v) :
  v < 64 ∧ b = symbol v
  := by
  have hb : UInt8.ofNat b.toNat = b := UInt8.ofNat_toNat
  unfold value? at h
  simp only at h
  generalize b.toNat = n at h hb
  subst hb
  split at h
  · obtain rfl := Option.some.inj h
    refine ⟨by omega, ?_⟩
    rw [symbol, if_pos (by omega), Nat.sub_add_cancel (by omega)]
  split at h
  · obtain rfl := Option.some.inj h
    refine ⟨by omega, ?_⟩
    rw [symbol, if_neg (by omega), if_pos (by omega), Nat.sub_add_cancel (by omega)]
  split at h
  · obtain rfl := Option.some.inj h
    refine ⟨by omega, ?_⟩
    rw [symbol, if_neg (by omega), if_neg (by omega), if_pos (by omega), Nat.add_sub_cancel]
  split at h
  · obtain rfl := Option.some.inj h
    rename_i hn
    subst hn
    exact ⟨by decide, rfl⟩
  split at h
  · obtain rfl := Option.some.inj h
    rename_i hn
    subst hn
    exact ⟨by decide, rfl⟩
  · cases h

theorem valueAt_symbol {n : Nat} (h : n < 64) (offset : Nat) :
  valueAt offset (symbol n) = .ok n
  := by
  rw [valueAt, value?_symbol h]

theorem eq_symbol_of_valueAt {offset v : Nat} {b : UInt8} (h : valueAt offset b = .ok v) :
  v < 64 ∧ b = symbol v
  := by
  apply eq_symbol_of_value?
  unfold valueAt at h
  split at h
  · cases h
    assumption
  · cases h

/-! ### Writing -/

/-- The symbols of three bytes. -/
def quad (a b c : UInt8) : Bytes :=
  [symbol (a.toNat / 4), symbol (a.toNat % 4 * 16 + b.toNat / 16),
    symbol (b.toNat % 16 * 4 + c.toNat / 64), symbol (c.toNat % 64)]

/-- The groups of a byte string stand behind what has been written before them. -/
theorem encodeOnto_eq_append (out b : Bytes) :
  encodeOnto out b = out.reverse ++ encode b
  := by
  unfold encode
  match b with
  | [] => simp [encodeOnto]
  | [a] => simp [encodeOnto]
  | [a, b] => simp [encodeOnto]
  | a :: b :: c :: rest =>
    rw [encodeOnto, encodeOnto, encodeOnto_eq_append _ rest, encodeOnto_eq_append [_, _, _, _] rest]
    simp

theorem encode_cons₃ (a b c : UInt8) (rest : Bytes) :
  encode (a :: b :: c :: rest) = quad a b c ++ encode rest
  := by
  rw [encode, encodeOnto, encodeOnto_eq_append]
  rfl

/-- A byte string has four symbols for every three bytes begun. -/
theorem length_encode (b : Bytes) :
  (encode b).length = (b.length + 2) / 3 * 4
  := by
  match b with
  | [] => simp [encode, encodeOnto]
  | [a] => simp [encode, encodeOnto]
  | [a, b] => simp [encode, encodeOnto]
  | a :: b :: c :: rest =>
    rw [encode_cons₃, List.length_append, length_encode rest]
    simp only [quad, List.length_cons, List.length_nil]
    omega

/-! ### Reading what was written -/

theorem ofNat_eq {n : Nat} {b : UInt8} (h : n = b.toNat) :
  UInt8.ofNat n = b
  := by
  rw [h, UInt8.ofNat_toNat]

theorem decodeQuad_symbol
    (start : Nat) {x y z w : Nat} (hx : x < 64) (hy : y < 64) (hz : z < 64) (hw : w < 64) :
  decodeQuad start (symbol x) (symbol y) (symbol z) (symbol w)
    = .ok (UInt8.ofNat (x * 4 + y / 16), UInt8.ofNat (y % 16 * 16 + z / 4),
      UInt8.ofNat (z % 4 * 64 + w))
  := by
  rw [decodeQuad, valueAt_symbol hx, valueAt_symbol hy, valueAt_symbol hz, valueAt_symbol hw]
  rfl

theorem decodeQuad_quad (start : Nat) (a b c : UInt8) :
  decodeQuad start (symbol (a.toNat / 4)) (symbol (a.toNat % 4 * 16 + b.toNat / 16))
    (symbol (b.toNat % 16 * 4 + c.toNat / 64)) (symbol (c.toNat % 64)) = .ok (a, b, c)
  := by
  have ha := a.toNat_lt
  have hb := b.toNat_lt
  have hc := c.toNat_lt
  rw [decodeQuad_symbol start (by omega) (by omega) (by omega) (by omega)]
  rw [ofNat_eq (b := a) (by omega), ofNat_eq (b := b) (by omega), ofNat_eq (b := c) (by omega)]

theorem readTail_symbol
    (start i : Nat) (t : Tail) {v : Nat} (rest : Bytes) (hv : v < 64) (ht : t.pads = 0) :
  readTail start i t (symbol v :: rest)
    = readTail start (i + 1)
      { t with symbols := t.symbols + 1, bits := t.bits * 64 + v, last := symbol v } rest
  := by
  rw [readTail, if_neg (symbol_ne_pad hv), if_neg (by simp [ht]), valueAt_symbol hv]

theorem ofNat_eq_mod {n : Nat} {b : UInt8} (h : n % 256 = b.toNat) :
  UInt8.ofNat n = b
  := by
  rw [← UInt8.toNat_inj, UInt8.toNat_ofNat', h]

theorem ofNat_congr {m n : Nat} (h : m % 256 = n % 256) :
  UInt8.ofNat m = UInt8.ofNat n
  := by
  rw [← UInt8.toNat_inj, UInt8.toNat_ofNat', UInt8.toNat_ofNat', h]

section Tail

variable (start : Nat) {x y z w : Nat} (hx : x < 64) (hy : y < 64) (hz : z < 64) (hw : w < 64)

include hx hy

/-- Two symbols stand for one byte. -/
theorem decodeTail_two :
  decodeTail start [symbol x, symbol y, pad, pad]
    = if (x * 64 + y) % 16 ≠ 0 then .error (.lastSymbol (start + 1) (symbol y))
      else .ok [UInt8.ofNat ((x * 64 + y) / 16)]
  := by
  rw [decodeTail, readTail_symbol _ _ _ _ hx rfl, readTail_symbol _ _ _ _ hy rfl]
  simp [readTail, Tail.empty, Tail.bytes, bigEndian]

include hz

/-- Three symbols stand for two bytes. -/
theorem decodeTail_three :
  decodeTail start [symbol x, symbol y, symbol z, pad]
    = if ((x * 64 + y) * 64 + z) % 4 ≠ 0 then .error (.lastSymbol (start + 2) (symbol z))
      else .ok [UInt8.ofNat (((x * 64 + y) * 64 + z) / 4 / 256),
        UInt8.ofNat (((x * 64 + y) * 64 + z) / 4)]
  := by
  rw [decodeTail, readTail_symbol _ _ _ _ hx rfl, readTail_symbol _ _ _ _ hy rfl,
    readTail_symbol _ _ _ _ hz rfl]
  simp [readTail, Tail.empty, Tail.bytes, bigEndian]

include hw

/-- Four symbols stand for three bytes. -/
theorem decodeTail_four :
  decodeTail start [symbol x, symbol y, symbol z, symbol w]
    = .ok [UInt8.ofNat (x * 4 + y / 16), UInt8.ofNat (y % 16 * 16 + z / 4),
      UInt8.ofNat (z % 4 * 64 + w)]
  := by
  rw [decodeTail, readTail_symbol _ _ _ _ hx rfl, readTail_symbol _ _ _ _ hy rfl,
    readTail_symbol _ _ _ _ hz rfl, readTail_symbol _ _ _ _ hw rfl]
  simp only [readTail, Tail.empty, Tail.bytes, bigEndian, Nat.pow, Nat.mod_one, Nat.div_one,
    Nat.zero_mul, Nat.zero_add]
  rw [if_neg (by simp), if_neg (by simp), if_neg (by simp)]
  simp only [List.nil_append, List.cons_append, Except.ok.injEq, List.cons.injEq, and_true]
  refine ⟨?_, ?_, ?_⟩
  all_goals
    apply ofNat_congr
    omega

end Tail

/-- The last group of a text is read as the bytes that it was written for. -/
theorem decodeTail_encode (start : Nat) (b : Bytes) (h : b.length ≤ 3) :
  decodeTail start (encode b) = .ok b
  := by
  match b with
  | [] => rfl
  | [a] =>
    have ha := a.toNat_lt
    simp only [encode, encodeOnto, List.reverse_cons, List.reverse_nil, List.nil_append,
      List.cons_append]
    rw [decodeTail_two start (by omega) (by omega), if_neg (by omega)]
    rw [ofNat_eq (b := a) (by omega)]
  | [a, b] =>
    have ha := a.toNat_lt
    have hb := b.toNat_lt
    simp only [encode, encodeOnto, List.reverse_cons, List.reverse_nil, List.nil_append,
      List.cons_append]
    rw [decodeTail_three start (by omega) (by omega) (by omega), if_neg (by omega)]
    rw [ofNat_eq_mod (b := a) (by omega), ofNat_eq_mod (b := b) (by omega)]
  | [a, b, c] =>
    have ha := a.toNat_lt
    have hb := b.toNat_lt
    have hc := c.toNat_lt
    simp only [encode, encodeOnto, List.reverse_cons, List.reverse_nil, List.nil_append,
      List.cons_append]
    rw [decodeTail_four start (by omega) (by omega) (by omega) (by omega)]
    rw [ofNat_eq (b := a) (by omega), ofNat_eq (b := b) (by omega), ofNat_eq (b := c) (by omega)]

theorem decodeOnto_of_length_le {text : Bytes} (start : Nat) (out : Bytes) (h : text.length ≤ 4) :
  decodeOnto start out text = (decodeTail start text).map (out.reverse ++ ·)
  := by
  unfold decodeOnto
  split
  · simp only [List.length_cons] at h
    omega
  · split
    · rename_i hf
      rw [hf]
      rfl
    · rename_i hb
      rw [hb]
      rfl

theorem decodeOnto_encode_of_length_le
    (start : Nat) (out : Bytes) {b : Bytes} (h : b.length ≤ 3) :
  decodeOnto start out (encode b) = .ok (out.reverse ++ b)
  := by
  rw [decodeOnto_of_length_le, decodeTail_encode start b h]
  · rfl
  · rw [length_encode]
    omega

/-- What was written for a byte string is read as that byte string. -/
theorem decodeOnto_encode (start : Nat) (out b : Bytes) :
  decodeOnto start out (encode b) = .ok (out.reverse ++ b)
  := by
  match b with
  | [] | [a] | [a, b] | [a, b, c] =>
    apply decodeOnto_encode_of_length_le
    simp
  | a :: b :: c :: d :: rest =>
    obtain ⟨s, more, hmore⟩ : ∃ s more, encode (d :: rest) = s :: more := by
      apply List.exists_cons_of_length_pos
      rw [length_encode, List.length_cons]
      omega
    rw [encode_cons₃, quad, hmore]
    simp only [List.cons_append, List.nil_append]
    rw [decodeOnto, decodeQuad_quad]
    simp only
    rw [← hmore, decodeOnto_encode (start + 4) (c :: b :: a :: out) (d :: rest)]
    simp

/-! ### Reading only what is written -/

/-- One byte of a last group that is read: it is a pad behind two symbols, or a symbol that no
pad comes before. -/
theorem readTail_cons
    {start i : Nat} {t t' : Tail} {b : UInt8} {rest : Bytes}
    (h : readTail start i t (b :: rest) = .ok t') :
  (b = pad ∧ 2 ≤ i % 4 ∧ ∃ place,
    readTail start (i + 1) { t with pads := t.pads + 1, firstPad := place } rest = .ok t')
  ∨ (t.pads = 0 ∧ ∃ v, v < 64 ∧ b = symbol v ∧
    readTail start (i + 1)
      { t with symbols := t.symbols + 1, bits := t.bits * 64 + v, last := symbol v } rest
        = .ok t')
  := by
  rw [readTail] at h
  split at h
  · rename_i hpad
    split at h
    · cases h
    split at h
    · rename_i hpads
      exact .inl ⟨hpad, by omega, start + i, by rw [hpads]; exact h⟩
    · exact .inl ⟨hpad, by omega, t.firstPad, h⟩
  · split at h
    · cases h
    rename_i hpads
    split at h
    · cases h
    · rename_i v hv
      obtain ⟨hlt, rfl⟩ := eq_symbol_of_valueAt hv
      exact .inr ⟨by simpa using hpads, v, hlt, rfl, h⟩

/-- Every byte of a last group that is read is a symbol or a pad. -/
theorem readTail_count
    {start : Nat} {text : Bytes} {i : Nat} {t t' : Tail} (h : readTail start i t text = .ok t') :
  t'.pads + t'.symbols = t.pads + t.symbols + text.length
  := by
  induction text generalizing i t with
  | nil =>
    cases h
    rfl
  | cons b rest ih =>
    rw [List.length_cons]
    rcases readTail_cons h with ⟨-, -, place, h⟩ | ⟨-, v, -, -, h⟩
    · have := ih h
      simp only at this
      omega
    · have := ih h
      simp only at this
      omega

section Symbols

variable {x y z w : Nat} (hx : x < 64) (hy : y < 64) (hz : z < 64) (hw : w < 64)

include hx hy

theorem encode_two (h : (x * 64 + y) % 16 = 0) :
  encode [UInt8.ofNat ((x * 64 + y) / 16)] = [symbol x, symbol y, pad, pad]
  := by
  have h₁ : (x * 64 + y) / 16 % 2 ^ 8 / 4 = x := by omega
  have h₂ : (x * 64 + y) / 16 % 2 ^ 8 % 4 * 16 = y := by omega
  simp only [encode, encodeOnto, List.reverse_cons, List.reverse_nil, List.nil_append,
    List.cons_append, UInt8.toNat_ofNat']
  rw [h₁, h₂]

include hz

theorem encode_three (h : ((x * 64 + y) * 64 + z) % 4 = 0) :
  encode [UInt8.ofNat (((x * 64 + y) * 64 + z) / 4 / 256),
      UInt8.ofNat (((x * 64 + y) * 64 + z) / 4)]
    = [symbol x, symbol y, symbol z, pad]
  := by
  have h₁ : ((x * 64 + y) * 64 + z) / 4 / 256 % 2 ^ 8 / 4 = x := by omega
  have h₂ : ((x * 64 + y) * 64 + z) / 4 / 256 % 2 ^ 8 % 4 * 16
    + ((x * 64 + y) * 64 + z) / 4 % 2 ^ 8 / 16 = y := by omega
  have h₃ : ((x * 64 + y) * 64 + z) / 4 % 2 ^ 8 % 16 * 4 = z := by omega
  simp only [encode, encodeOnto, List.reverse_cons, List.reverse_nil, List.nil_append,
    List.cons_append, UInt8.toNat_ofNat']
  rw [h₁, h₂, h₃]

include hw

theorem quad_ofNat :
  quad (UInt8.ofNat (x * 4 + y / 16)) (UInt8.ofNat (y % 16 * 16 + z / 4))
      (UInt8.ofNat (z % 4 * 64 + w))
    = [symbol x, symbol y, symbol z, symbol w]
  := by
  have h₁ : (x * 4 + y / 16) % 2 ^ 8 / 4 = x := by omega
  have h₂ : (x * 4 + y / 16) % 2 ^ 8 % 4 * 16 + (y % 16 * 16 + z / 4) % 2 ^ 8 / 16 = y := by omega
  have h₃ : (y % 16 * 16 + z / 4) % 2 ^ 8 % 16 * 4 + (z % 4 * 64 + w) % 2 ^ 8 / 64 = z := by omega
  have h₄ : (z % 4 * 64 + w) % 2 ^ 8 % 64 = w := by omega
  simp only [quad, UInt8.toNat_ofNat']
  rw [h₁, h₂, h₃, h₄]

end Symbols

/-- A last group that is read is what is written for its bytes. -/
theorem eq_encode_of_decodeTail
    {start : Nat} {text bytes : Bytes} (hlen : text.length ≤ 4)
    (h : decodeTail start text = .ok bytes) :
  text = encode bytes
  := by
  have hread := h
  unfold decodeTail at hread
  split at hread
  · cases hread
  rename_i t ht
  split at hread
  · cases hread
  split at hread
  · cases hread
  rename_i hfull
  have hcount : t.pads + t.symbols = text.length := by
    rw [readTail_count ht]
    simp [Tail.empty]
  match text with
  | [] =>
    cases h
    rfl
  | [_] | [_, _] | [_, _, _] =>
    simp only [List.length_cons, List.length_nil] at hcount
    omega
  | _ :: _ :: _ :: _ :: _ :: _ =>
    simp only [List.length_cons] at hlen
    omega
  | [a, b, c, d] =>
    obtain ⟨-, hle, -⟩ | ⟨-, x, hx, rfl, ht₁⟩ := readTail_cons ht
    · simp at hle
    obtain ⟨-, hle, -⟩ | ⟨-, y, hy, rfl, ht₂⟩ := readTail_cons ht₁
    · simp at hle
    obtain ⟨rfl, -, _, ht₃⟩ | ⟨-, z, hz, rfl, ht₃⟩ := readTail_cons ht₂
    · obtain ⟨rfl, -⟩ | ⟨hpads, -⟩ := readTail_cons ht₃
      · rw [decodeTail_two start hx hy] at h
        split at h
        · cases h
        cases h
        rw [encode_two hx hy (by omega)]
      · simp [Tail.empty] at hpads
    · obtain ⟨rfl, -⟩ | ⟨-, w, hw, rfl, -⟩ := readTail_cons ht₃
      · rw [decodeTail_three start hx hy hz] at h
        split at h
        · cases h
        cases h
        rw [encode_three hx hy hz (by omega)]
      · rw [decodeTail_four start hx hy hz hw] at h
        cases h
        rw [encode_cons₃, quad_ofNat hx hy hz hw]
        rfl

/-- Four symbols that are read are those of their three bytes. -/
theorem eq_quad_of_decodeQuad
    {start : Nat} {a b c d x y z : UInt8} (h : decodeQuad start a b c d = .ok (x, y, z)) :
  [a, b, c, d] = quad x y z
  := by
  simp only [decodeQuad, bind, Except.bind, pure, Except.pure] at h
  split at h
  · cases h
  rename_i u hu
  split at h
  · cases h
  rename_i v hv
  split at h
  · cases h
  rename_i s hs
  split at h
  · cases h
  rename_i t ht
  obtain ⟨hu', rfl⟩ := eq_symbol_of_valueAt hu
  obtain ⟨hv', rfl⟩ := eq_symbol_of_valueAt hv
  obtain ⟨hs', rfl⟩ := eq_symbol_of_valueAt hs
  obtain ⟨ht', rfl⟩ := eq_symbol_of_valueAt ht
  cases h
  rw [quad_ofNat hu' hv' hs' ht']

/-- A text that is read is what is written for its bytes. -/
theorem eq_encode_of_decodeOnto
    {start : Nat} {out text bytes : Bytes} (h : decodeOnto start out text = .ok bytes) :
  ∃ b, bytes = out.reverse ++ b ∧ text = encode b
  := by
  by_cases hlen : text.length ≤ 4
  · rw [decodeOnto_of_length_le start out hlen] at h
    cases htail : decodeTail start text with
    | error f =>
      rw [htail] at h
      cases h
    | ok b =>
      rw [htail] at h
      cases h
      exact ⟨b, rfl, eq_encode_of_decodeTail hlen htail⟩
  match text with
  | [] | [_] | [_, _] | [_, _, _] | [_, _, _, _] => simp at hlen
  | a :: b :: c :: d :: e :: rest =>
    rw [decodeOnto] at h
    split at h
    · cases h
    rename_i x y z hquad
    obtain ⟨more, rfl, hmore⟩ := eq_encode_of_decodeOnto h
    refine ⟨x :: y :: z :: more, by simp, ?_⟩
    rw [encode_cons₃, ← eq_quad_of_decodeQuad hquad, ← hmore]
    rfl
termination_by text.length

/-! ### The canonical text -/

/-- A written text has no lone last byte. -/
theorem strayByte?_encode (b : Bytes) :
  strayByte? (encode b) = none
  := by
  rw [strayByte?, if_neg]
  rw [length_encode]
  omega

theorem decode_encode (b : Bytes) :
  decode (encode b) = .ok b
  := by
  rw [decode, strayByte?_encode]
  simp only
  rw [decodeOnto_encode]
  rfl

/-- Exactly the text that is written for a byte string is read as it. -/
theorem decode_eq_ok_iff {text b : Bytes} :
  decode text = .ok b ↔ text = encode b
  := by
  constructor
  · intro h
    unfold decode at h
    split at h
    · cases h
    obtain ⟨b', rfl, htext⟩ := eq_encode_of_decodeOnto h
    exact htext
  · rintro rfl
    apply decode_encode

end StreamCall.Base64
