import Mathlib.Tactic.Use
import StreamCall.Proofs.Json.Strings
import StreamCall.Text.Utf8

/-!
# Reading any bytes as text

Bytes are read as text character by character; where they spell no character, as much of them as
could still have become one is read as the replacement character (`Reads`).  There is exactly one
text that any bytes are read as, and it is `lossy` that gives it (`reads_iff`).

A character that has not been read to its end is followed by the groups of six bits it still
awaits (`Unfinished.Awaits`).  Any bytes it allows next begin a character together with those that
have been read (`Unfinished.Behind`), so it is given up no sooner than it has to be.
-/

namespace StreamCall.Utf8

/-! ### Ill-formed parts -/

/-- Whether bytes begin the bytes of a character. -/
def Begins (part : Bytes) : Prop := ∃ c, part <+: String.utf8EncodeChar c

/-- Whether a part of some bytes is read at once although it is no character: it is as much as
still begins one, or else the first byte. -/
structure IsIllFormed (part rest : Bytes) : Prop where
  unread : ∀ c, ¬ String.utf8EncodeChar c <+: part ++ rest
  ne_nil : part ≠ []
  begins : Begins part ∨ part.length = 1
  longest : ∀ b more, rest = b :: more → ¬ Begins (part ++ [b])

/-- Whether bytes are read as some characters. -/
inductive Reads : Bytes → List Char → Prop where
  | nil : Reads [] []
  | char (c : Char) {rest : Bytes} {cs : List Char} :
    Reads rest cs → Reads (String.utf8EncodeChar c ++ rest) (c :: cs)
  | illFormed {part rest : Bytes} {cs : List Char} :
    IsIllFormed part rest → Reads rest cs → Reads (part ++ rest) ('\uFFFD' :: cs)

theorem Begins.cut {part more : Bytes} (h : Begins more) (hcut : part <+: more) :
  Begins part
  := by
  obtain ⟨c, hc⟩ := h
  exact ⟨c, hcut.trans hc⟩

/-- Where bytes spell no character they begin with an ill-formed part. -/
theorem exists_isIllFormed
    {b : UInt8} {bs : Bytes} (h : ∀ c, ¬ String.utf8EncodeChar c <+: b :: bs) :
  ∃ part rest, b :: bs = part ++ rest ∧ IsIllFormed part rest
  := by
  by_cases hbegins : Begins [b]
  · -- The part is prolonged as far as it begins a character.
    have hlonger : ∀ (rest part : Bytes), part ≠ [] → Begins part →
        ∃ part' rest', part ++ rest = part' ++ rest' ∧ part' ≠ [] ∧ Begins part'
          ∧ ∀ x more, rest' = x :: more → ¬ Begins (part' ++ [x]) := by
      intro rest
      induction rest with
      | nil =>
        intro part hne hpart
        exact ⟨part, [], rfl, hne, hpart, fun x more heq => by cases heq⟩
      | cons x rest ih =>
        intro part hne hpart
        by_cases hx : Begins (part ++ [x])
        · obtain ⟨part', rest', heq, hrest⟩ := ih (part ++ [x]) (by simp) hx
          exact ⟨part', rest', by rw [← heq, ← List.append_cons], hrest⟩
        · refine ⟨part, x :: rest, rfl, hne, hpart, ?_⟩
          intro y more heq
          cases heq
          exact hx
    obtain ⟨part, rest, heq, hne, hpart, hlongest⟩ := hlonger bs [b] (by simp) hbegins
    refine ⟨part, rest, heq, ?_, hne, .inl hpart, hlongest⟩
    rw [← heq]
    exact h
  · refine ⟨[b], bs, rfl, h, by simp, .inr rfl, ?_⟩
    intro x more _ hmore
    exact hbegins (hmore.cut (List.prefix_append _ _))

/-- Any bytes are read as some characters. -/
theorem exists_reads (b : Bytes) :
  ∃ cs, Reads b cs
  := by
  induction hlength : b.length using Nat.strongRecOn generalizing b with
  | ind n ih =>
    cases b with
    | nil => exact ⟨[], .nil⟩
    | cons x bs =>
      by_cases h : ∃ c, String.utf8EncodeChar c <+: x :: bs
      · obtain ⟨c, rest, heq⟩ := h
        have hpos := List.length_pos_iff.mpr (String.utf8EncodeChar_ne_nil (c := c))
        have hlt : rest.length < n := by
          rw [← hlength, ← heq, List.length_append]
          omega
        obtain ⟨cs, hcs⟩ := ih _ hlt rest rfl
        rw [← heq]
        exact ⟨_, .char c hcs⟩
      · obtain ⟨part, rest, heq, hpart⟩ := exists_isIllFormed (not_exists.mp h)
        have hpos := List.length_pos_iff.mpr hpart.ne_nil
        have hlt : rest.length < n := by
          rw [← hlength, heq, List.length_append]
          omega
        obtain ⟨cs, hcs⟩ := ih _ hlt rest rfl
        rw [heq]
        exact ⟨_, .illFormed hpart hcs⟩

/-! ### Groups of six bits -/

/-- A code point without its last `m` groups of six bits. -/
def leading : Nat → Nat → Nat
  | 0, n => n
  | m + 1, n => leading m n / 64

/-- The bytes of the last `m` groups of six bits of a code point. -/
def trailing : Nat → Nat → Bytes
  | 0, _ => []
  | m + 1, n => UInt8.ofNat (leading m n % 64 + 0x80) :: trailing m n

/-- Any bits lead some code point. -/
theorem exists_leading (m k : Nat) :
  ∃ n, leading m n = k
  := by
  induction m generalizing k with
  | zero => exact ⟨k, rfl⟩
  | succ m ih =>
    obtain ⟨n, hn⟩ := ih (k * 64)
    use n
    rw [leading, hn]
    omega

namespace Unfinished

/-- Whether the bits that have been read lead a code point, and its next group is allowed. -/
def Awaits (p : Unfinished) (n : Nat) : Prop :=
  ∃ m, p.missing = m + 1 ∧ leading (m + 1) n = p.bits
    ∧ p.low.toNat ≤ leading m n % 64 + 0x80 ∧ leading m n % 64 + 0x80 ≤ p.high.toNat

/-- Whether some bytes have been read of every character that may come out. -/
structure Behind (part : Bytes) (p : Unfinished) : Prop where
  missing : p.missing ≠ 0
  low : 0x80 ≤ p.low.toNat
  range : p.low ≤ p.high
  high : p.high.toNat ≤ 0xBF
  encode : ∀ n, p.Awaits n →
    ∃ c, c.toNat = n ∧ String.utf8EncodeChar c = part ++ trailing p.missing n

/-- The next byte is one more group of bits. -/
def next (p : Unfinished) (b : UInt8) : Unfinished :=
  ⟨p.bits * 64 + (b.toNat - 0x80), p.missing - 1, 0x80, 0xBF⟩

/-- A byte in the range of a sequence continues it. -/
theorem feed_next
    {p : Unfinished} {b : UInt8} (h : p.low ≤ b ∧ b ≤ p.high) (hmore : 1 < p.missing)
    (out : List Char) :
  feed (out, some p) b = (out, some (p.next b))
  := by
  rw [feed, if_pos h, if_neg (by omega)]
  rfl

/-- The last byte of a sequence completes a character. -/
theorem feed_last
    {p : Unfinished} {b : UInt8} (h : p.low ≤ b ∧ b ≤ p.high) (hlast : p.missing ≤ 1)
    (out : List Char) :
  feed (out, some p) b = (Char.ofNat (p.bits * 64 + (b.toNat - 0x80)) :: out, none)
  := by
  rw [feed, if_pos h, if_pos hlast]

/-- The next group of bits that is awaited is allowed as the next byte. -/
theorem Awaits.step {p : Unfinished} {n : Nat} (h : p.Awaits n) :
  ∃ b, trailing p.missing n = b :: trailing (p.missing - 1) n ∧ (p.low ≤ b ∧ b ≤ p.high)
    ∧ p.bits * 64 + (b.toNat - 0x80) = leading (p.missing - 1) n
  := by
  obtain ⟨m, hm, hbits, hfrom, hto⟩ := h
  have hb : (UInt8.ofNat (leading m n % 64 + 0x80)).toNat = leading m n % 64 + 0x80 := by
    rw [UInt8.toNat_ofNat']
    omega
  use UInt8.ofNat (leading m n % 64 + 0x80)
  rw [hm, UInt8.le_iff_toNat_le, UInt8.le_iff_toNat_le, hb, ← hbits, leading]
  exact ⟨rfl, ⟨hfrom, hto⟩, by simp only [Nat.add_sub_cancel]; omega⟩

/-- What is awaited is still awaited once its next group has been read. -/
theorem Awaits.next
    {p : Unfinished} {n : Nat} {b : UInt8} (hmore : 1 < p.missing)
    (hbits : p.bits * 64 + (b.toNat - 0x80) = leading (p.missing - 1) n) :
  (p.next b).Awaits n
  := by
  refine ⟨p.missing - 2, ?_, ?_, ?_, ?_⟩
  · show p.missing - 1 = p.missing - 2 + 1
    omega
  · rw [show p.missing - 2 + 1 = p.missing - 1 by omega, ← hbits]
    rfl
  · show 0x80 ≤ _
    omega
  · show _ ≤ 0xBF
    omega

/-- A character is read once all that is awaited of it has come. -/
theorem Awaits.foldl_feed {p : Unfinished} {n : Nat} (h : p.Awaits n) (out : List Char) :
  (trailing p.missing n).foldl feed (out, some p) = (Char.ofNat n :: out, none)
  := by
  induction hm : p.missing generalizing p with
  | zero =>
    obtain ⟨m, hm', -⟩ := h
    omega
  | succ m ih =>
    obtain ⟨b, htrailing, hrange, hbits⟩ := h.step
    rw [hm] at htrailing hbits
    rw [htrailing, List.foldl_cons, Nat.add_sub_cancel]
    rw [Nat.add_sub_cancel] at hbits
    cases m with
    | zero =>
      rw [feed_last hrange (by omega), hbits]
      rfl
    | succ m =>
      have hmore : 1 < p.missing := by omega
      rw [feed_next hrange hmore]
      apply ih (.next hmore (by rw [hm]; exact hbits))
      show p.missing - 1 = m + 1
      omega

namespace Behind

variable {part : Bytes} {p : Unfinished} (h : p.Behind part) {b : UInt8}
  (hrange : p.low ≤ b ∧ b ≤ p.high)

include h hrange

/-- An allowed byte is the next group of the code points that it leads. -/
theorem awaits {n : Nat} (hbits : leading (p.missing - 1) n = p.bits * 64 + (b.toNat - 0x80)) :
  p.Awaits n ∧ trailing p.missing n = b :: trailing (p.missing - 1) n
  := by
  have hlow := UInt8.le_iff_toNat_le.mp hrange.1
  have hhigh := UInt8.le_iff_toNat_le.mp hrange.2
  have hlow' := h.low
  have hhigh' := h.high
  have hgroup : leading (p.missing - 1) n % 64 + 0x80 = b.toNat := by
    rw [hbits]
    omega
  obtain ⟨m, hm⟩ := Nat.exists_eq_succ_of_ne_zero h.missing
  rw [hm, Nat.succ_eq_add_one, Nat.add_sub_cancel] at hbits hgroup ⊢
  refine ⟨⟨m, hm, ?_, ?_, ?_⟩, ?_⟩
  · rw [leading, hbits]
    omega
  · rw [hgroup]
    exact hlow
  · rw [hgroup]
    exact hhigh
  · rw [trailing, hgroup, UInt8.ofNat_toNat]

/-- An allowed byte is read, if more are missing. -/
theorem next (hmore : 1 < p.missing) :
  (p.next b).Behind (part ++ [b])
  := by
  constructor
  · show p.missing - 1 ≠ 0
    omega
  · exact Nat.le_refl 0x80
  · show (0x80 : UInt8) ≤ 0xBF
    decide
  · exact Nat.le_refl 0xBF
  · rintro n ⟨m, hm, hbits, -, -⟩
    have hm' : p.missing - 1 = m + 1 := hm
    obtain ⟨hawaits, htrailing⟩ := h.awaits hrange (hm' ▸ hbits)
    obtain ⟨c, hc, hencode⟩ := h.encode n hawaits
    use c, hc
    rw [hencode, htrailing, List.append_cons]
    rfl

/-- An allowed byte begins a character together with what has been read. -/
theorem begins :
  Begins (part ++ [b])
  := by
  obtain ⟨n, hn⟩ := exists_leading (p.missing - 1) (p.bits * 64 + (b.toNat - 0x80))
  obtain ⟨hawaits, htrailing⟩ := h.awaits hrange hn
  obtain ⟨c, -, hencode⟩ := h.encode n hawaits
  use c
  rw [hencode, htrailing]
  exact ⟨_, (List.append_cons part b _).symm⟩

end Behind

theorem Behind.begins_self {part : Bytes} {p : Unfinished} (h : p.Behind part) :
  Begins part
  :=
  (h.begins ⟨UInt8.le_refl _, h.range⟩).cut (List.prefix_append _ _)

end Unfinished

/-! ### Characters by their length -/

theorem toNat_val_ofNat {n : Nat} (h : n.isValidChar) :
  (Char.ofNat n).val.toNat = n
  :=
  Json.toNat_ofNat h

theorem encode_one {n : Nat} (h : n < 0x80) :
  String.utf8EncodeChar (Char.ofNat n) = [UInt8.ofNat n]
  := by
  have hn := toNat_val_ofNat (n := n) (.inl (by omega))
  simp only [String.utf8EncodeChar, hn]
  rw [if_pos (by omega)]

theorem encode_two {n : Nat} (h : 0x80 ≤ n ∧ n < 0x800) :
  String.utf8EncodeChar (Char.ofNat n) = UInt8.ofNat (leading 1 n + 0xC0) :: trailing 1 n
  := by
  have hn := toNat_val_ofNat (n := n) (.inl (by omega))
  simp only [String.utf8EncodeChar, hn]
  rw [if_neg (by omega), if_pos (by omega), Nat.mod_eq_of_lt (by omega)]
  rfl

theorem encode_three {n : Nat} (h : 0x800 ≤ n ∧ n < 0x10000) (hvalid : n.isValidChar) :
  String.utf8EncodeChar (Char.ofNat n) = UInt8.ofNat (leading 2 n + 0xE0) :: trailing 2 n
  := by
  have hn := toNat_val_ofNat hvalid
  simp only [String.utf8EncodeChar, hn]
  rw [if_neg (by omega), if_neg (by omega), if_pos (by omega), Nat.mod_eq_of_lt (by omega),
    show n / 4096 = n / 64 / 64 by omega]
  rfl

theorem encode_four {n : Nat} (h : 0x10000 ≤ n ∧ n < 0x110000) :
  String.utf8EncodeChar (Char.ofNat n) = UInt8.ofNat (leading 3 n + 0xF0) :: trailing 3 n
  := by
  have hn := toNat_val_ofNat (n := n) (.inr (by omega))
  simp only [String.utf8EncodeChar, hn]
  rw [if_neg (by omega), if_neg (by omega), if_neg (by omega),
    Nat.mod_eq_of_lt (b := 8) (by omega), show n / 262144 = n / 64 / 64 / 64 by omega,
    show n / 4096 = n / 64 / 64 by omega]
  rfl

/-! ### First bytes -/

namespace Unfinished

/-- What is awaited behind the first of two bytes. -/
def two (a : UInt8) : Unfinished := ⟨a.toNat - 0xC0, 1, 0x80, 0xBF⟩

/-- What is awaited behind the first of three bytes: no character that takes two, and no
surrogate. -/
def three (a : UInt8) : Unfinished :=
  ⟨a.toNat - 0xE0, 2, if a = 0xE0 then 0xA0 else 0x80, if a = 0xED then 0x9F else 0xBF⟩

/-- What is awaited behind the first of four bytes: no character that takes three, and none
beyond the last. -/
def four (a : UInt8) : Unfinished :=
  ⟨a.toNat - 0xF0, 3, if a = 0xF0 then 0x90 else 0x80, if a = 0xF4 then 0x8F else 0xBF⟩

variable {a : UInt8} {n : Nat}

/-- A lower bound that depends on the first byte. -/
theorem low_le_iff (k : Nat) (first low : UInt8) :
  (if a = first then low else 0x80).toNat ≤ k % 64 + 0x80
    ↔ (a = first → low.toNat ≤ k % 64 + 0x80)
  := by
  split
  · next h => exact (imp_iff_right h).symm
  · next h => exact iff_of_true (Nat.le_add_left _ _) fun hfirst => absurd hfirst h

/-- An upper bound that depends on the first byte. -/
theorem le_high_iff (k : Nat) (first high : UInt8) :
  k % 64 + 0x80 ≤ (if a = first then high else 0xBF).toNat
    ↔ (a = first → k % 64 + 0x80 ≤ high.toNat)
  := by
  split
  · next h => exact (imp_iff_right h).symm
  · next h =>
    have hgroup : k % 64 + 0x80 ≤ 0xBF := by omega
    exact iff_of_true hgroup fun hfirst => absurd hfirst h

/-- Bounds that depend on the first byte are those of a group, and there is one between them. -/
theorem guarded_bounds
    (a first last low high : UInt8) (hne : first ≠ last) (hlow : 0x80 ≤ low ∧ low ≤ 0xBF)
    (hhigh : 0x80 ≤ high ∧ high ≤ 0xBF) :
  0x80 ≤ (if a = first then low else 0x80)
    ∧ (if a = first then low else 0x80) ≤ (if a = last then high else 0xBF)
    ∧ (if a = last then high else 0xBF) ≤ 0xBF
  := by
  by_cases hfirst : a = first
  · have hlast : a ≠ last := hfirst ▸ hne
    rw [if_pos hfirst, if_neg hlast]
    exact ⟨hlow.1, hlow.2, UInt8.le_refl _⟩
  · rw [if_neg hfirst]
    refine ⟨UInt8.le_refl _, ?_⟩
    by_cases hlast : a = last
    · rw [if_pos hlast]
      exact hhigh
    · rw [if_neg hlast]
      exact ⟨by decide, UInt8.le_refl _⟩

theorem awaits_two_iff :
  (two a).Awaits n ↔ n / 64 = a.toNat - 0xC0
  := by
  constructor
  · rintro ⟨m, hm, hbits, -⟩
    cases hm
    exact hbits
  · intro h
    refine ⟨0, rfl, h, ?_, ?_⟩
    · show 0x80 ≤ n % 64 + 0x80
      omega
    · show n % 64 + 0x80 ≤ 0xBF
      omega

theorem awaits_three_iff :
  (three a).Awaits n ↔ n / 64 / 64 = a.toNat - 0xE0
    ∧ (a = 0xE0 → 0xA0 ≤ n / 64 % 64 + 0x80) ∧ (a = 0xED → n / 64 % 64 + 0x80 ≤ 0x9F)
  := by
  constructor
  · rintro ⟨m, hm, hbits, hlow, hhigh⟩
    cases hm
    exact ⟨hbits, (low_le_iff _ _ _).mp hlow, (le_high_iff _ _ _).mp hhigh⟩
  · rintro ⟨hbits, hlow, hhigh⟩
    exact ⟨1, rfl, hbits, (low_le_iff _ _ _).mpr hlow, (le_high_iff _ _ _).mpr hhigh⟩

theorem awaits_four_iff :
  (four a).Awaits n ↔ n / 64 / 64 / 64 = a.toNat - 0xF0
    ∧ (a = 0xF0 → 0x90 ≤ n / 64 / 64 % 64 + 0x80) ∧ (a = 0xF4 → n / 64 / 64 % 64 + 0x80 ≤ 0x8F)
  := by
  constructor
  · rintro ⟨m, hm, hbits, hlow, hhigh⟩
    cases hm
    exact ⟨hbits, (low_le_iff _ _ _).mp hlow, (le_high_iff _ _ _).mp hhigh⟩
  · rintro ⟨hbits, hlow, hhigh⟩
    exact ⟨2, rfl, hbits, (low_le_iff _ _ _).mpr hlow, (le_high_iff _ _ _).mpr hhigh⟩

theorem Behind.two (h : 0xC2 ≤ a ∧ a < 0xE0) :
  (two a).Behind [a]
  := by
  simp only [UInt8.le_iff_toNat_le, UInt8.lt_iff_toNat_lt, UInt8.reduceToNat] at h
  refine ⟨Nat.one_ne_zero, Nat.le_refl 0x80, ?_, Nat.le_refl 0xBF, ?_⟩
  · show (0x80 : UInt8) ≤ 0xBF
    decide
  · intro n hn
    rw [awaits_two_iff] at hn
    refine ⟨Char.ofNat n, toNat_val_ofNat (.inl (by omega)), ?_⟩
    rw [encode_two (by omega), leading, leading, hn, Nat.sub_add_cancel (by omega),
      UInt8.ofNat_toNat]
    rfl

theorem Behind.three (h : 0xE0 ≤ a ∧ a < 0xF0) :
  (three a).Behind [a]
  := by
  simp only [UInt8.le_iff_toNat_le, UInt8.lt_iff_toNat_lt, UInt8.reduceToNat] at h
  obtain ⟨hlow, hrange, hhigh⟩ := guarded_bounds a 0xE0 0xED 0xA0 0x9F
    (by decide) (by decide) (by decide)
  refine ⟨Nat.succ_ne_zero 1, UInt8.le_iff_toNat_le.mp hlow, hrange,
    UInt8.le_iff_toNat_le.mp hhigh, ?_⟩
  intro n hn
  rw [awaits_three_iff] at hn
  simp only [← UInt8.toNat_inj, UInt8.reduceToNat] at hn
  have hvalid : n.isValidChar := by
    unfold Nat.isValidChar
    omega
  refine ⟨Char.ofNat n, toNat_val_ofNat hvalid, ?_⟩
  rw [encode_three (by omega) hvalid, leading, leading, leading, hn.1,
    Nat.sub_add_cancel (by omega), UInt8.ofNat_toNat]
  rfl

theorem Behind.four (h : 0xF0 ≤ a ∧ a ≤ 0xF4) :
  (four a).Behind [a]
  := by
  simp only [UInt8.le_iff_toNat_le, UInt8.reduceToNat] at h
  obtain ⟨hlow, hrange, hhigh⟩ := guarded_bounds a 0xF0 0xF4 0x90 0x8F
    (by decide) (by decide) (by decide)
  refine ⟨Nat.succ_ne_zero 2, UInt8.le_iff_toNat_le.mp hlow, hrange,
    UInt8.le_iff_toNat_le.mp hhigh, ?_⟩
  intro n hn
  rw [awaits_four_iff] at hn
  simp only [← UInt8.toNat_inj, UInt8.reduceToNat] at hn
  refine ⟨Char.ofNat n, toNat_val_ofNat (.inr (by omega)), ?_⟩
  rw [encode_four (by omega), leading, leading, leading, leading, hn.1,
    Nat.sub_add_cancel (by omega), UInt8.ofNat_toNat]
  rfl

end Unfinished

section

variable {a : UInt8} (out : List Char)

theorem begin_one (h : a < 0x80) :
  begin out a = (Char.ofNat a.toNat :: out, none)
  := by
  unfold begin
  exact if_pos h

theorem begin_two (h : 0xC2 ≤ a ∧ a < 0xE0) :
  begin out a = (out, some (.two a))
  := by
  have h₁ : ¬ a < 0x80 := UInt8.not_lt.mpr (UInt8.le_trans (by decide) h.1)
  have h₂ : ¬ a < 0xC2 := UInt8.not_lt.mpr h.1
  unfold begin
  rw [if_neg h₁, if_neg h₂, if_pos h.2]
  rfl

theorem begin_three (h : 0xE0 ≤ a ∧ a < 0xF0) :
  begin out a = (out, some (.three a))
  := by
  have h₁ : ¬ a < 0x80 := UInt8.not_lt.mpr (UInt8.le_trans (by decide) h.1)
  have h₂ : ¬ a < 0xC2 := UInt8.not_lt.mpr (UInt8.le_trans (by decide) h.1)
  have h₃ : ¬ a < 0xE0 := UInt8.not_lt.mpr h.1
  unfold begin
  rw [if_neg h₁, if_neg h₂, if_neg h₃]
  by_cases hfirst : a = 0xE0
  · cases hfirst
    rfl
  · by_cases hlast : a = 0xED
    · cases hlast
      rfl
    · unfold Unfinished.three
      rw [if_neg hfirst, if_neg hlast, if_pos h.2, if_neg hfirst, if_neg hlast]

theorem begin_four (h : 0xF0 ≤ a ∧ a ≤ 0xF4) :
  begin out a = (out, some (.four a))
  := by
  have h₁ : ¬ a < 0x80 := UInt8.not_lt.mpr (UInt8.le_trans (by decide) h.1)
  have h₂ : ¬ a < 0xC2 := UInt8.not_lt.mpr (UInt8.le_trans (by decide) h.1)
  have h₃ : ¬ a < 0xE0 := UInt8.not_lt.mpr (UInt8.le_trans (by decide) h.1)
  have h₄ : ¬ a < 0xF0 := UInt8.not_lt.mpr h.1
  have hthree : ∀ b : UInt8, b < 0xF0 → a ≠ b := fun b hb heq => h₄ (heq ▸ hb)
  unfold begin
  rw [if_neg h₁, if_neg h₂, if_neg h₃, if_neg (hthree 0xE0 (by decide)),
    if_neg (hthree 0xED (by decide)), if_neg h₄]
  by_cases hfirst : a = 0xF0
  · cases hfirst
    rfl
  · by_cases hlast : a = 0xF4
    · cases hlast
      rfl
    · have hlt : a < 0xF4 := UInt8.lt_of_le_of_ne h.2 hlast
      unfold Unfinished.four
      rw [if_neg hfirst, if_pos hlt, if_neg hfirst, if_neg hlast]

theorem begin_none (h : 0x80 ≤ a ∧ a < 0xC2 ∨ 0xF4 < a) :
  begin out a = (replacement :: out, none)
  := by
  unfold begin
  obtain ⟨hfrom, hto⟩ | hfrom := h
  · rw [if_neg (UInt8.not_lt.mpr hfrom), if_pos hto]
  · have hlt : ∀ b : UInt8, b ≤ 0xF4 → ¬ a < b :=
      fun b hb => UInt8.not_lt.mpr (UInt8.le_of_lt (UInt8.lt_of_le_of_lt hb hfrom))
    have hne : ∀ b : UInt8, b ≤ 0xF4 → a ≠ b :=
      fun b hb heq => UInt8.not_lt.mpr hb (heq ▸ hfrom)
    rw [if_neg (hlt 0x80 (by decide)), if_neg (hlt 0xC2 (by decide)),
      if_neg (hlt 0xE0 (by decide)), if_neg (hne 0xE0 (by decide)),
      if_neg (hne 0xED (by decide)), if_neg (hlt 0xF0 (by decide)),
      if_neg (hne 0xF0 (by decide)), if_neg (hlt 0xF4 (by decide)),
      if_neg (hne 0xF4 (by decide))]

end

/-- A byte that begins no character is given up at once. -/
theorem begin_of_not_begins {a : UInt8} (h : ¬ Begins [a]) (out : List Char) :
  begin out a = (replacement :: out, none)
  := by
  by_cases h₁ : a < 0x80
  · have hencode : String.utf8EncodeChar (Char.ofNat a.toNat) = [a] := by
      rw [encode_one (UInt8.lt_iff_toNat_lt.mp h₁), UInt8.ofNat_toNat]
    exact absurd ⟨Char.ofNat a.toNat, hencode ▸ List.prefix_rfl⟩ h
  by_cases h₂ : a < 0xC2
  · exact begin_none out (.inl ⟨UInt8.not_lt.mp h₁, h₂⟩)
  by_cases h₃ : a < 0xE0
  · exact absurd (Unfinished.Behind.two ⟨UInt8.not_lt.mp h₂, h₃⟩).begins_self h
  by_cases h₄ : a < 0xF0
  · exact absurd (Unfinished.Behind.three ⟨UInt8.not_lt.mp h₃, h₄⟩).begins_self h
  by_cases h₅ : a ≤ 0xF4
  · exact absurd (Unfinished.Behind.four ⟨UInt8.not_lt.mp h₄, h₅⟩).begins_self h
  · exact begin_none out (.inr (UInt8.not_le.mp h₅))

/-- The first byte of a character is all of it, or the rest of it is awaited. -/
theorem begin_encode (c : Char) :
  (∃ a, String.utf8EncodeChar c = [a] ∧ ∀ out, begin out a = (c :: out, none))
    ∨ ∃ a p, String.utf8EncodeChar c = a :: trailing p.missing c.toNat
      ∧ p.Awaits c.toNat ∧ p.Behind [a] ∧ ∀ out, begin out a = (out, some p)
  := by
  have hvalid : c.toNat.isValidChar := c.valid
  have hlt : c.toNat < 0x110000 := by
    unfold Nat.isValidChar at hvalid
    omega
  have hc : Char.ofNat c.toNat = c := Char.ofNat_toNat c
  generalize c.toNat = n at hvalid hlt hc
  subst hc
  have hbyte : ∀ k, k < 256 → (UInt8.ofNat k).toNat = k := by
    intro k hk
    rw [UInt8.toNat_ofNat']
    exact Nat.mod_eq_of_lt hk
  rcases Nat.lt_or_ge n 0x80 with h₁ | h₁
  · left
    have hn := hbyte n (by omega)
    refine ⟨_, encode_one h₁, fun out => ?_⟩
    rw [begin_one out (UInt8.lt_iff_toNat_lt.mpr (hn.symm ▸ h₁)), hn]
  right
  rcases Nat.lt_or_ge n 0x800 with h₂ | h₂
  · have hfirst := hbyte (leading 1 n + 0xC0) (by rw [leading, leading]; omega)
    have hrange : 0xC2 ≤ UInt8.ofNat (leading 1 n + 0xC0)
        ∧ UInt8.ofNat (leading 1 n + 0xC0) < 0xE0 := by
      rw [UInt8.le_iff_toNat_le, UInt8.lt_iff_toNat_lt, hfirst, leading, leading]
      simp only [UInt8.reduceToNat]
      omega
    refine ⟨_, .two _, encode_two ⟨h₁, h₂⟩, ?_, .two hrange, fun out => begin_two out hrange⟩
    rw [Unfinished.awaits_two_iff, hfirst]
    simp only [leading]
    omega
  rcases Nat.lt_or_ge n 0x10000 with h₃ | h₃
  · have hfirst := hbyte (leading 2 n + 0xE0) (by simp only [leading]; omega)
    have hrange : 0xE0 ≤ UInt8.ofNat (leading 2 n + 0xE0)
        ∧ UInt8.ofNat (leading 2 n + 0xE0) < 0xF0 := by
      rw [UInt8.le_iff_toNat_le, UInt8.lt_iff_toNat_lt, hfirst]
      simp only [UInt8.reduceToNat, leading]
      omega
    refine ⟨_, .three _, encode_three ⟨h₂, h₃⟩ hvalid, ?_, .three hrange,
      fun out => begin_three out hrange⟩
    rw [Unfinished.awaits_three_iff, ← UInt8.toNat_inj, ← UInt8.toNat_inj, hfirst]
    unfold Nat.isValidChar at hvalid
    simp only [UInt8.reduceToNat, leading]
    omega
  · have hfirst := hbyte (leading 3 n + 0xF0) (by simp only [leading]; omega)
    have hrange : 0xF0 ≤ UInt8.ofNat (leading 3 n + 0xF0)
        ∧ UInt8.ofNat (leading 3 n + 0xF0) ≤ 0xF4 := by
      rw [UInt8.le_iff_toNat_le, UInt8.le_iff_toNat_le, hfirst]
      simp only [UInt8.reduceToNat, leading]
      omega
    refine ⟨_, .four _, encode_four ⟨h₃, hlt⟩, ?_, .four hrange,
      fun out => begin_four out hrange⟩
    rw [Unfinished.awaits_four_iff, ← UInt8.toNat_inj, ← UInt8.toNat_inj, hfirst]
    simp only [UInt8.reduceToNat, leading]
    omega

/-- A character is read as it is. -/
theorem foldl_feed_encode (c : Char) (out : List Char) :
  (String.utf8EncodeChar c).foldl feed (out, none) = (c :: out, none)
  := by
  obtain ⟨a, hencode, hbegin⟩ | ⟨a, p, hencode, hawaits, -, hbegin⟩ := begin_encode c
  · rw [hencode]
    exact hbegin out
  · rw [hencode, List.foldl_cons, feed, hbegin, hawaits.foldl_feed, Char.ofNat_toNat]

/-- What has been read of a character is behind what is still awaited. -/
theorem Unfinished.Awaits.foldl_feed_of_cut
    {p : Unfinished} {n : Nat} (h : p.Awaits n) {front more : Bytes} (hfront : p.Behind front)
    (hmore : more <+: trailing p.missing n) (hproper : more ≠ trailing p.missing n)
    (out : List Char) :
  ∃ q : Unfinished, more.foldl feed (out, some p) = (out, some q) ∧ q.Behind (front ++ more)
  := by
  induction more generalizing p front with
  | nil =>
    use p, rfl
    rw [List.append_nil]
    exact hfront
  | cons b more ih =>
    obtain ⟨b', htrailing, hrange, hbits⟩ := h.step
    rw [htrailing] at hmore hproper
    obtain ⟨rfl, hrest⟩ := List.cons_prefix_cons.mp hmore
    have hproper' : more ≠ trailing (p.missing - 1) n := fun heq => hproper (by rw [heq])
    have hmissing : 1 < p.missing := by
      rw [← Nat.not_le]
      intro hlast
      rw [Nat.sub_eq_zero_of_le hlast] at hrest hproper'
      exact hproper' (List.prefix_nil.mp hrest)
    rw [List.foldl_cons, feed_next hrange hmissing, List.append_cons]
    exact ih (.next hmissing hbits) (hfront.next hrange hmissing) hrest hproper'

/-- What begins a character has been read, and the rest of it is awaited. -/
theorem foldl_feed_of_begins
    {part : Bytes} (hne : part ≠ []) (h : Begins part)
    (hproper : ∀ c, part ≠ String.utf8EncodeChar c) (out : List Char) :
  ∃ p : Unfinished, part.foldl feed (out, none) = (out, some p) ∧ p.Behind part
  := by
  obtain ⟨c, hc⟩ := h
  obtain ⟨b, more, rfl⟩ := List.exists_cons_of_ne_nil hne
  obtain ⟨a, hencode, -⟩ | ⟨a, p, hencode, hawaits, hbehind, hbegin⟩ := begin_encode c
  · rw [hencode] at hc
    obtain ⟨rfl, hmore⟩ := List.cons_prefix_cons.mp hc
    rw [List.prefix_nil.mp hmore] at hproper
    exact absurd hencode.symm (hproper c)
  · rw [hencode] at hc
    obtain ⟨rfl, hmore⟩ := List.cons_prefix_cons.mp hc
    have hproper' : more ≠ trailing p.missing c.toNat := by
      intro heq
      rw [heq] at hproper
      exact hproper c hencode.symm
    rw [List.foldl_cons, feed, hbegin]
    exact hawaits.foldl_feed_of_cut hbehind hmore hproper' out

/-! ### Reading to the end -/

/-- The characters that have been read, in reverse; a character that has not been read to its end
is given up. -/
def ended : List Char × Option Unfinished → List Char
  | (out, none) => out
  | (out, some _) => replacement :: out

theorem lossy_eq (b : Bytes) :
  lossy b = String.ofList (ended (b.foldl feed ([], none))).reverse
  := by
  rw [lossy]
  rcases b.foldl feed ([], none) with ⟨out, _ | p⟩ <;> rfl

/-- An ill-formed part is given up where it ends. -/
theorem IsIllFormed.ended_foldl_feed {part rest : Bytes} (h : IsIllFormed part rest)
    (out : List Char) :
  ended ((part ++ rest).foldl feed (out, none))
    = ended (rest.foldl feed (replacement :: out, none))
  := by
  rw [List.foldl_append]
  by_cases hbegins : Begins part
  · have hproper : ∀ c, part ≠ String.utf8EncodeChar c := by
      rintro c rfl
      exact h.unread c (List.prefix_append _ _)
    obtain ⟨p, hfold, hbehind⟩ := foldl_feed_of_begins h.ne_nil hbegins hproper out
    rw [hfold]
    cases rest with
    | nil => rfl
    | cons b more =>
      have hrange : ¬ (p.low ≤ b ∧ b ≤ p.high) :=
        fun hrange => h.longest b more rfl (hbehind.begins hrange)
      have hfeed : feed (out, some p) b = feed (replacement :: out, none) b := if_neg hrange
      rw [List.foldl_cons, List.foldl_cons, hfeed]
  · obtain ⟨a, rfl⟩ := List.length_eq_one_iff.mp (h.begins.resolve_left hbegins)
    rw [List.foldl_cons, List.foldl_nil, feed, begin_of_not_begins hbegins]

/-- What bytes are read as is what has been read of them in the end. -/
theorem Reads.ended_foldl_feed {b : Bytes} {cs : List Char} (h : Reads b cs) (out : List Char) :
  ended (b.foldl feed (out, none)) = cs.reverse ++ out
  := by
  induction h generalizing out with
  | nil => rfl
  | char c _ ih =>
    rw [List.foldl_append, foldl_feed_encode, ih, List.reverse_cons, List.append_assoc]
    rfl
  | illFormed hpart _ ih =>
    rw [hpart.ended_foldl_feed, ih, List.reverse_cons, List.append_assoc]
    rfl

/-- There is exactly one text that bytes are read as. -/
theorem reads_iff (b : Bytes) (cs : List Char) :
  Reads b cs ↔ cs = (lossy b).toList
  := by
  have hread : ∀ ds, Reads b ds → ds = (lossy b).toList := by
    intro ds hds
    rw [lossy_eq, hds.ended_foldl_feed, List.append_nil, List.reverse_reverse,
      String.toList_ofList]
  constructor
  · exact hread cs
  · rintro rfl
    obtain ⟨ds, hds⟩ := exists_reads b
    rw [← hread ds hds]
    exact hds

end StreamCall.Utf8
