import Mathlib.Data.List.DropRight
import Mathlib.Tactic.Use
import StreamCall.Address

/-!
# Names of servers

The name of the server behind an address is the host in it, whatever the port is
(`serverName_eq_host`).  The port begins at the last colon, as there are none in it
(`splitLast_append`), and the brackets around a host are taken off
(`IsBare.unbracketed_bracketed`).  A host has no brackets of its own, be it written
(`Host.text_isBare`) or passed over in a text that is read (`Leaves`).
-/

namespace StreamCall

open Address

namespace Address

/-! ### The split at the last colon -/

/-- A text splits at its last colon. -/
theorem splitLast_append {port : List Char} (h : ':' ∉ port) (host : List Char) :
  splitLast (host ++ ':' :: port) = some (host, port)
  := by
  have hreverse : (host ++ ':' :: port).reverse = port.reverse ++ ':' :: host.reverse := by simp
  have hport : ∀ c ∈ port.reverse, decide (c ≠ ':') = true := by
    intro c hc
    rw [List.mem_reverse] at hc
    rw [decide_eq_true_iff]
    rintro rfl
    exact h hc
  rw [splitLast, hreverse, List.dropWhile_append_of_pos hport, List.takeWhile_append_of_pos hport]
  simp

/-! ### Brackets -/

/-- A text without the brackets at its ends. -/
def unbracketed (cs : List Char) : List Char :=
  (cs.dropWhile (· = '[')).rdropWhile (· = ']')

/-- Whether there are no brackets at the ends of a text that could be taken off. -/
structure IsBare (host : String) : Prop where
  front : ¬ ['['] <+: host.toList
  back : ¬ [']'] <:+ host.toList

theorem dropWhile_of_not_prefix {c : Char} {cs : List Char} (h : ¬ [c] <+: cs) :
  cs.dropWhile (· = c) = cs
  := by
  cases cs with
  | nil => rfl
  | cons d cs =>
    apply List.dropWhile_cons_of_neg
    rw [decide_eq_true_iff]
    rintro rfl
    exact h ⟨cs, rfl⟩

theorem rdropWhile_of_not_suffix {c : Char} {cs : List Char} (h : ¬ [c] <:+ cs) :
  cs.rdropWhile (· = c) = cs
  := by
  rw [List.rdropWhile, dropWhile_of_not_prefix, List.reverse_reverse]
  rw [← List.reverse_suffix, List.reverse_reverse]
  exact h

theorem IsBare.unbracketed {host : String} (h : IsBare host) :
  unbracketed host.toList = host.toList
  := by
  rw [Address.unbracketed, dropWhile_of_not_prefix h.front, rdropWhile_of_not_suffix h.back]

/-- One bracket at each end is taken off. -/
theorem IsBare.unbracketed_bracketed {host : String} (h : IsBare host) :
  Address.unbracketed ('[' :: (host.toList ++ [']'])) = host.toList
  := by
  have hfront : ¬ ['['] <+: host.toList ++ [']'] := by
    intro hstart
    cases hhost : host.toList with
    | nil =>
      rw [hhost] at hstart
      exact absurd hstart (by decide)
    | cons c cs =>
      rw [hhost, List.cons_append, List.prefix_cons_iff] at hstart
      apply h.front
      simpa [hhost] using hstart
  rw [Address.unbracketed, List.dropWhile_cons_of_pos (by decide), dropWhile_of_not_prefix hfront,
    List.rdropWhile_concat_pos _ _ _ (by decide), rdropWhile_of_not_suffix h.back]

/-! ### Hosts and ports -/

/-- Whether a text is a port as it follows a host: digits, and at least one. -/
structure IsPort (port : String) : Prop where
  ne_empty : port ≠ ""
  isDigit : ∀ c ∈ port.toList, c.isDigit = true

theorem IsPort.colon_notMem {port : String} (h : IsPort port) :
  ':' ∉ port.toList
  :=
  fun hmem => absurd (h.isDigit ':' hmem) (by decide)

/-- In front of a port there is a host. -/
theorem serverName_of_port {port : String} (h : IsPort port) (front : List Char) :
  serverName (String.ofList (front ++ ':' :: port.toList)) = String.ofList (unbracketed front)
  := by
  have hne : port.toList ≠ [] := by simpa using h.ne_empty
  have hall : port.toList.all Char.isDigit = true := List.all_eq_true.mpr h.isDigit
  rw [serverName, String.toList_ofList, splitLast_append h.colon_notMem]
  simp only [hne, hall, ne_eq, not_false_iff, and_true, if_true]
  rfl

theorem serverName_colon {host port : String} (hhost : IsBare host) (hport : IsPort port) :
  serverName (host ++ ":" ++ port) = host
  := by
  have htext : host ++ ":" ++ port = String.ofList (host.toList ++ ':' :: port.toList) := by
    rw [← String.toList_inj]
    simp
  rw [htext, serverName_of_port hport, hhost.unbracketed, String.ofList_toList]

theorem serverName_bracketed {host port : String} (hhost : IsBare host) (hport : IsPort port) :
  serverName ("[" ++ host ++ "]:" ++ port) = host
  := by
  have htext : "[" ++ host ++ "]:" ++ port
      = String.ofList ('[' :: (host.toList ++ [']']) ++ ':' :: port.toList) := by
    rw [← String.toList_inj]
    simp
  rw [htext, serverName_of_port hport, hhost.unbracketed_bracketed, String.ofList_toList]

/-! ### Hosts that are read -/

/-- Whether a character is no bracket. -/
def IsPlain (c : Char) : Prop := c ≠ '[' ∧ c ≠ ']'

instance (c : Char) : Decidable (IsPlain c) := instDecidableAnd

/-- Whether there are no brackets in a text. -/
def Bracketless (cs : List Char) : Prop := ∀ c ∈ cs, IsPlain c

instance (cs : List Char) : Decidable (Bracketless cs) := List.decidableBAll IsPlain cs

theorem Bracketless.nil :
  Bracketless []
  :=
  fun _ h => nomatch h

theorem Bracketless.append {cs cs' : List Char} (h : Bracketless cs) (h' : Bracketless cs') :
  Bracketless (cs ++ cs')
  := by
  intro c hc
  rw [List.mem_append] at hc
  exact hc.elim (h c) (h' c)

theorem Bracketless.isBare {host : String} (h : Bracketless host.toList) :
  IsBare host
  := by
  constructor
  · intro hstart
    exact (h '[' (hstart.subset (List.mem_singleton.mpr rfl))).1 rfl
  · intro hsuffix
    exact (h ']' (hsuffix.subset (List.mem_singleton.mpr rfl))).2 rfl

/-- Whether something is left of a text, with no brackets in front of it. -/
def Leaves (cs rest : List Char) : Prop :=
  ∃ front, cs = front ++ rest ∧ Bracketless front

theorem Leaves.refl (cs : List Char) :
  Leaves cs cs
  :=
  ⟨[], rfl, .nil⟩

theorem Leaves.trans {cs cs' rest : List Char} (h : Leaves cs cs') (h' : Leaves cs' rest) :
  Leaves cs rest
  := by
  obtain ⟨front, rfl, hfront⟩ := h
  obtain ⟨front', rfl, hfront'⟩ := h'
  exact ⟨front ++ front', (List.append_assoc _ _ _).symm, hfront.append hfront'⟩

theorem mark_eq_some_iff {c : Char} {cs rest : List Char} :
  mark c cs = some rest ↔ cs = c :: rest
  := by
  cases cs with
  | nil => simp [mark]
  | cons d cs => by_cases hd : d = c <;> simp [mark, hd]

theorem leaves_mark {c : Char} {cs rest : List Char} (h : mark c cs = some rest)
    (hc : IsPlain c) :
  Leaves cs rest
  := by
  rw [mark_eq_some_iff] at h
  exact ⟨[c], h, by simpa [Bracketless] using hc⟩

theorem isPlain_of_digit? {radix : Nat} (hradix : radix ≤ 16) {c : Char}
    (h : (digit? radix c).isSome = true) :
  IsPlain c
  := by
  have hnone : (if 16 < radix then some 16 else none : Option Nat) = none :=
    if_neg (Nat.not_lt.mpr hradix)
  constructor
  · rintro rfl
    have hdigit : digit? radix '[' = if 16 < radix then some 16 else none := rfl
    rw [hdigit, hnone] at h
    cases h
  · rintro rfl
    have hdigit : digit? radix ']' = if 16 < radix then some 16 else none := rfl
    rw [hdigit, hnone] at h
    cases h

theorem isDigit_of_digit? {c : Char} (h : (digit? 10 c).isSome = true) :
  c.isDigit = true
  := by
  have hrange : 48 ≤ c.toNat ∧ c.toNat ≤ 57 := by
    simp only [digit?, Option.isSome_ite] at h
    split at h
    · next hdecimal => exact hdecimal
    · split at h
      · omega
      · split at h <;> omega
  simpa [Char.isDigit, UInt32.le_iff_toNat_le] using hrange

/-- A number that is read is a number of digits, and at least one. -/
theorem exists_digits_of_number
    {radix digits limit n : Nat} {cs rest : List Char}
    (h : number radix digits limit cs = some (n, rest)) :
  ∃ front, cs = front ++ rest ∧ front ≠ [] ∧ ∀ c ∈ front, (digit? radix c).isSome = true
  := by
  rw [number] at h
  split at h
  · cases h
  · next hfits =>
    cases h
    refine ⟨cs.takeWhile fun c => (digit? radix c).isSome, ?_, ?_, ?_⟩
    · exact (List.prefix_iff_eq_append.mp (List.takeWhile_prefix _)).symm
    · intro hnil
      apply hfits
      left
      rw [hnil]
      rfl
    · intro c hc
      exact List.mem_takeWhile_imp (p := fun c => (digit? radix c).isSome) hc

theorem leaves_number
    {radix : Nat} (hradix : radix ≤ 16) {digits limit n : Nat} {cs rest : List Char}
    (h : number radix digits limit cs = some (n, rest)) :
  Leaves cs rest
  := by
  obtain ⟨front, hcs, -, hdigits⟩ := exists_digits_of_number h
  exact ⟨front, hcs, fun c hc => isPlain_of_digit? hradix (hdigits c hc)⟩

theorem leaves_octet {n : Nat} {cs rest : List Char} (h : octet cs = some (n, rest)) :
  Leaves cs rest
  := by
  rw [octet] at h
  split at h
  · cases h
  · next m rest' hnumber =>
    split at h
    · cases h
    · cases h
      exact leaves_number (by decide) hnumber

theorem leaves_octets {v : Nat × Nat × Nat × Nat} {cs rest : List Char}
    (h : octets cs = some (v, rest)) :
  Leaves cs rest
  := by
  have hdot : IsPlain '.' := by decide
  simp only [octets, Option.bind_eq_bind, Option.bind_eq_some_iff, Option.pure_def,
    Option.some.injEq] at h
  obtain ⟨⟨a, cs₁⟩, ha, m₁, hm₁, ⟨b, cs₂⟩, hb, m₂, hm₂, ⟨c, cs₃⟩, hc, m₃, hm₃, ⟨d, cs₄⟩, hd,
    hv⟩ := h
  cases hv
  have hfirst := (leaves_octet ha).trans (leaves_mark hm₁ hdot)
  have hsecond := (leaves_octet hb).trans (leaves_mark hm₂ hdot)
  have hthird := (leaves_octet hc).trans (leaves_mark hm₃ hdot)
  exact ((hfirst.trans hsecond).trans hthird).trans (leaves_octet hd)

theorem leaves_nextGroup {first : Bool} {cs rest : List Char} (h : nextGroup first cs = some rest) :
  Leaves cs rest
  := by
  cases first with
  | true =>
    cases h
    exact .refl cs
  | false => exact leaves_mark h (by decide)

theorem leaves_groups (n : Nat) (first : Bool) (cs : List Char) :
  Leaves cs (groups n first cs).2.2
  := by
  induction n generalizing first cs with
  | zero => exact .refl cs
  | succ n ih =>
    rw [groups]
    split
    · exact .refl cs
    · next inner hinner =>
      split
      · next a b c d rest hoctets =>
        split at hoctets
        · cases hoctets
        · exact (leaves_nextGroup hinner).trans (leaves_octets hoctets)
      · split
        · exact .refl cs
        · next g rest hnumber =>
          exact ((leaves_nextGroup hinner).trans (leaves_number (by decide) hnumber)).trans
            (ih false rest)

theorem leaves_eightGroups {gs : List Nat} {cs rest : List Char}
    (h : eightGroups cs = some (gs, rest)) :
  Leaves cs rest
  := by
  have hfront := leaves_groups 8 true cs
  rw [eightGroups] at h
  split at h
  next front mixed left hgroups =>
  rw [hgroups] at hfront
  split at h
  · cases h
    exact hfront
  · split at h
    · cases h
    · split at h
      · next _ behind =>
        have hcolons : Leaves (':' :: ':' :: behind) behind :=
          ⟨[':', ':'], rfl, by decide⟩
        have hback := leaves_groups (7 - front.length) true behind
        split at h
        next back _ rest' hgroups' =>
        rw [hgroups'] at hback
        cases h
        exact (hfront.trans hcolons).trans hback
      · cases h

theorem leaves_scope (cs : List Char) :
  Leaves cs (scope cs).2
  := by
  rw [scope]
  split
  · exact .refl cs
  · next rest hmark =>
    cases hnumber : number 10 rest.length (Nat.pow 2 32 - 1) rest with
    | none => exact .refl cs
    | some r =>
      exact (leaves_mark hmark (by decide)).trans (leaves_number (by decide) hnumber)

/-- At the end of an address there is a colon and a port. -/
theorem exists_port_of_portAtEnd {cs : List Char} {n : Nat} (h : portAtEnd cs = some n) :
  ∃ port, IsPort port ∧ cs = ':' :: port.toList
  := by
  simp only [portAtEnd, Option.bind_eq_bind, Option.bind_eq_some_iff] at h
  obtain ⟨digits, hmark, h⟩ := h
  rw [mark_eq_some_iff] at hmark
  split at h
  · next hnumber =>
    obtain ⟨front, hdigits, hne, hall⟩ := exists_digits_of_number hnumber
    rw [List.append_nil] at hdigits
    refine ⟨String.ofList front, ⟨by simpa using hne, ?_⟩, ?_⟩
    · rw [String.toList_ofList]
      exact fun c hc => isDigit_of_digit? (hall c hc)
    · rw [String.toList_ofList, hmark, hdigits]
  · cases h

/-! ### Hosts that are written -/

theorem bracketless_toDigits {radix : Nat} (hradix : 1 < radix) (n : Nat) :
  Bracketless (Nat.toDigits radix n)
  := by
  have hdigit : ∀ k, Bracketless [Nat.digitChar k] := by
    intro k c hc
    rw [List.mem_singleton.mp hc]
    exact ⟨Nat.digitChar_ne '[' (by decide), Nat.digitChar_ne ']' (by decide)⟩
  induction n using Nat.strong_induction_on with
  | h n ih =>
    rw [Nat.toDigits_eq_if hradix]
    split
    · exact hdigit n
    · next hge => exact (ih (n / radix) (Nat.div_lt_self (by omega) hradix)).append (hdigit _)

theorem bracketless_toString (n : Nat) :
  Bracketless (toString n).toList
  := by
  rw [Nat.toString_eq_ofList_toDigits, String.toList_ofList]
  exact bracketless_toDigits (by decide) n

theorem bracketless_intercalate
    {sep : String} {parts : List String} (hsep : Bracketless sep.toList)
    (hparts : ∀ part ∈ parts, Bracketless part.toList) :
  Bracketless (String.intercalate sep parts).toList
  := by
  rw [String.toList_intercalate]
  induction parts with
  | nil => exact .nil
  | cons part parts ih =>
    rw [List.forall_mem_cons] at hparts
    cases parts with
    | nil =>
      rw [List.map_singleton, List.intercalate_singleton]
      exact hparts.1
    | cons next parts =>
      rw [List.map_cons, List.map_cons, List.intercalate_cons_cons]
      exact (hparts.1.append hsep).append (ih hparts.2)

theorem bracketless_octetsText (a b c d : Nat) :
  Bracketless (octetsText a b c d).toList
  := by
  apply bracketless_intercalate (by decide)
  intro part hpart
  obtain ⟨n, -, rfl⟩ := List.mem_map.mp hpart
  exact bracketless_toString n

theorem bracketless_groupsText (groups : List Nat) :
  Bracketless (groupsText groups).toList
  := by
  apply bracketless_intercalate (by decide)
  intro part hpart
  obtain ⟨n, -, rfl⟩ := List.mem_map.mp hpart
  rw [String.toList_ofList]
  exact bracketless_toDigits (by decide) n

theorem bracketless_eightGroupsText (groups : List Nat) :
  Bracketless (eightGroupsText groups).toList
  := by
  rw [eightGroupsText.eq_def]
  split
  · rw [String.toList_append]
    exact .append (by decide) (bracketless_octetsText _ _ _ _)
  · generalize zeroRun 0 0 (0, 0) groups = run
    dsimp only
    split
    · rw [String.toList_append, String.toList_append]
      exact ((bracketless_groupsText _).append (by decide)).append (bracketless_groupsText _)
    · exact bracketless_groupsText groups

end Address

/-- The text of a host: its number, and the scope it is valid in, if there is one. -/
def Host.text : Host → String
  | .v4 a b c d => octetsText a b c d
  | .v6 groups scope =>
    eightGroupsText groups ++ if scope = 0 then "" else "%" ++ toString scope

/-- The text of a host with a port behind it; brackets tell the colons in eight groups from the one
in front of the port. -/
def Host.withPort : Host → String → String → String
  | .v4 _ _ _ _, host, port => host ++ ":" ++ port
  | .v6 _ _, host, port => "[" ++ host ++ "]:" ++ port

theorem Host.text_isBare (host : Host) :
  IsBare host.text
  := by
  apply Bracketless.isBare
  cases host with
  | v4 a b c d => exact bracketless_octetsText a b c d
  | v6 groups scope =>
    rw [Host.text, String.toList_append]
    apply (bracketless_eightGroupsText groups).append
    split
    · exact .nil
    · rw [String.toList_append]
      exact .append (by decide) (bracketless_toString scope)

namespace Address

theorem serverName_withPort
    (kind : Host) {host port : String} (hhost : IsBare host) (hport : IsPort port) :
  serverName (kind.withPort host port) = host
  := by
  cases kind with
  | v4 a b c d => exact serverName_colon hhost hport
  | v6 groups scope => exact serverName_bracketed hhost hport

theorem isPort_toString (n : Nat) :
  IsPort (toString n)
  where
  ne_empty := by
    rw [Nat.toString_eq_ofList_toDigits, ne_eq, ← String.toList_inj]
    simp
  isDigit c hc := by
    rw [Nat.toString_eq_ofList_toDigits, String.toList_ofList] at hc
    exact Nat.isDigit_of_mem_toDigits (by decide) (by decide) hc

theorem text_eq_withPort (host : Host) (port : Nat) :
  text ⟨host, port⟩ = host.withPort host.text (toString port)
  := by
  cases host with
  | v4 a b c d => rfl
  | v6 groups scope =>
    rw [← String.toList_inj]
    simp [text, Host.withPort, Host.text]

/-- A literal address is the text of a host with a port behind it. -/
theorem exists_withPort_of_literal? {text : String} {address : Address}
    (h : literal? text.toList = some address) :
  ∃ host port, IsBare host ∧ IsPort port ∧ text = address.host.withPort host port
  := by
  rw [literal?] at h
  split at h
  · next a b c d rest hoctets =>
    obtain ⟨n, hport, rfl⟩ := Option.map_eq_some_iff.mp h
    obtain ⟨port, hport, hrest⟩ := exists_port_of_portAtEnd hport
    obtain ⟨host, htext, hplain⟩ := leaves_octets hoctets
    rw [← String.toList_ofList (l := host)] at hplain
    refine ⟨String.ofList host, port, hplain.isBare, hport, ?_⟩
    rw [← String.toList_inj, htext, hrest]
    simp [Host.withPort]
  · simp only [Option.bind_eq_bind, Option.bind_eq_some_iff] at h
    obtain ⟨inner, hopen, ⟨gs, rest⟩, hgroups, rest', hclose, n, hport, haddress⟩ := h
    cases haddress
    obtain ⟨port, hport, hrest⟩ := exists_port_of_portAtEnd hport
    rw [mark_eq_some_iff] at hopen hclose
    obtain ⟨host, hinner, hplain⟩ := (leaves_eightGroups hgroups).trans (leaves_scope rest)
    rw [← String.toList_ofList (l := host)] at hplain
    refine ⟨String.ofList host, port, hplain.isBare, hport, ?_⟩
    rw [← String.toList_inj, hopen, hinner, hclose, hrest]
    simp [Host.withPort]

/-- The name of the server behind an address is the host in it.  A host without brackets at its
ends is found in front of any port, and inside brackets; so the name of an address that is written
is the text of its host, and the name of one that is read is what stands for the host, whatever the
port is. -/
theorem serverName_eq_host :
  (∀ host port, IsBare host → IsPort port →
    serverName (host ++ ":" ++ port) = host ∧ serverName ("[" ++ host ++ "]:" ++ port) = host)
  ∧ (∀ host port, serverName (text ⟨host, port⟩) = host.text)
  ∧ ∀ text address, literal? text.toList = some address →
    ∃ host port, IsPort port ∧ text = address.host.withPort host port
      ∧ ∀ port', IsPort port' → serverName (address.host.withPort host port') = host
  := by
  refine ⟨?_, ?_, ?_⟩
  · intro host port hhost hport
    exact ⟨serverName_colon hhost hport, serverName_bracketed hhost hport⟩
  · intro host port
    rw [text_eq_withPort]
    exact serverName_withPort host host.text_isBare (isPort_toString port)
  · intro text address h
    obtain ⟨host, port, hhost, hport, htext⟩ := exists_withPort_of_literal? h
    exact ⟨host, port, hport, htext, fun port' hport' =>
      serverName_withPort address.host hhost hport'⟩

/-- A host with a named scope is found, and one with a numbered scope in an address that is read. -/
theorem serverName_eq_host_scoped :
  (IsBare "fe80::1%eth0" ∧ IsPort "04433"
    ∧ serverName ("fe80::1%eth0" ++ ":" ++ "04433") = "fe80::1%eth0"
    ∧ serverName ("[" ++ "fe80::1%eth0" ++ "]:" ++ "04433") = "fe80::1%eth0")
  ∧ literal? "[fe80::1%7]:443".toList = some ⟨.v6 [0xfe80, 0, 0, 0, 0, 0, 0, 1] 7, 443⟩
  ∧ ∃ host port, IsPort port
    ∧ "[fe80::1%7]:443" = (Host.v6 [0xfe80, 0, 0, 0, 0, 0, 0, 1] 7).withPort host port
    ∧ ∀ port', IsPort port' →
      serverName ((Host.v6 [0xfe80, 0, 0, 0, 0, 0, 0, 1] 7).withPort host port') = host
  := by
  have hbare : IsBare "fe80::1%eth0" := ⟨by decide, by decide⟩
  have hport : IsPort "04433" := ⟨by decide, List.all_eq_true.mp (by decide)⟩
  have hliteral : literal? "[fe80::1%7]:443".toList
      = some ⟨.v6 [0xfe80, 0, 0, 0, 0, 0, 0, 1] 7, 443⟩ := by decide
  use ⟨hbare, hport, serverName_eq_host.1 _ _ hbare hport⟩, hliteral
  exact serverName_eq_host.2.2 _ _ hliteral

end Address

end StreamCall
