import StreamCall.Proofs.Client.Crowd
import StreamCall.Proofs.Stream.Wire

/-!
# What calls do to what they share

The tokens of a call are those below its roots: the token of its caller, and the one of its stream
on the side of the server.  What a call does cancels no other tokens (`World.Turns`), and leaves
the call and the stream as they should be (`Call.Goes.of_step`): a stream that has been accepted
stays with its handler, and what the server does with it is what that handler does
(`Duty.Sound`).
-/

namespace StreamCall

variable {ν α : Type}

/-! ### What becomes of the surroundings -/

/-- Whether surroundings have become others by something that cancels its own tokens only. -/
structure World.Turns (own : Token → Prop) (w w' : World ν) : Prop where
  source : w'.source = w.source
  clock_le : w.clock ≤ w'.clock
  drawn_le : w.drawn ≤ w'.drawn
  next_le : w.tokens.next ≤ w'.tokens.next
  still_cancelled : ∀ c ∈ w.tokens.cancelled, c ∈ w'.tokens.cancelled
  cancelled : ∀ c ∈ w'.tokens.cancelled, c ∈ w.tokens.cancelled ∨ own c

namespace World.Turns

variable {own own' : Token → Prop} {w w' : World ν}

theorem refl (w : World ν) :
  w.Turns own w
  :=
  ⟨rfl, Nat.le_refl _, Nat.le_refl _, Nat.le_refl _, fun _ h => h, fun _ h => .inl h⟩

theorem mono (h : w.Turns own w') (hown : ∀ c, own c → own' c) :
  w.Turns own' w'
  :=
  { h with cancelled := fun c hc => (h.cancelled c hc).imp_right (hown c) }

theorem child (w : World ν) (t : Token) :
  w.Turns own { w with tokens := (w.tokens.child t).2 }
  :=
  ⟨rfl, Nat.le_refl _, Nat.le_refl _, Nat.le_succ _, fun _ h => h, fun _ h => .inl h⟩

theorem cancel (w : World ν) {t : Token} (ht : own t) :
  w.Turns own { w with tokens := w.tokens.cancel t }
  := by
  refine ⟨rfl, Nat.le_refl _, Nat.le_refl _, Nat.le_refl _, fun _ h => List.mem_cons_of_mem _ h,
    ?_⟩
  intro c hc
  cases List.mem_cons.mp hc with
  | inl heq => exact .inr (heq ▸ ht)
  | inr hc => exact .inl hc

/-- What uses no other tokens than those below one cancels no others. -/
theorem of_answer
    {t : Token} {op : AmbientOp ν} (hop : op.IsBelow t) (hown : ∀ c, t.IsOver c → own c)
    {answer : op.Answer} (h : w.answer op = some (answer, w')) :
  w.Turns own w'
  := by
  cases op with
  | log | note | now | isCancelled =>
    cases h
    exact ⟨rfl, Nat.le_refl _, Nat.le_refl _, Nat.le_refl _, fun _ h => h, fun _ h => .inl h⟩
  | random n =>
    cases h
    exact ⟨rfl, Nat.le_refl _, Nat.le_add_right _ _, Nat.le_refl _, fun _ h => h,
      fun _ h => .inl h⟩
  | cancel u =>
    cases h
    exact .cancel w (hown u hop)
  | branch u =>
    cases h
    exact .child w u
  | pause | hang => cases h

end World.Turns

/-- The answers of surroundings tell what programs rely on. -/
theorem World.tells_of_answer
    {w w' : World ν} {op : AmbientOp ν} {answer : op.Answer}
    (h : w.answer op = some (answer, w')) :
  AmbientOp.Tells op answer
  := by
  cases op with
  | branch u =>
    cases h
    exact Token.isOver_child w.tokens u
  | log | note | random | now | isCancelled | cancel | pause | hang => trivial

namespace Client

/-! ### Duties -/

namespace Duty

variable {d d' : Duty ν} {w w' : World ν}

/-- Whether a duty is done as its handler would do it, with no other tokens than those of the
stream. -/
structure Sound (d : Duty ν) : Prop where
  installed : ∀ handler ∈ d.handler, handler.IsLocal
  isLocal : d.rest.Obeys (Service.below d.stream.token) fun _ => True
  reaches : (serveAccepted d.handler).Reaches d.rest
  letGo : d.isOver = true → d.rest.IsOver

theorem Sound.begin
    {handler : Option (Handler ν)} (h : ∀ installed ∈ handler, installed.IsLocal) (id : Nat)
    (token : Token) :
  (Duty.begin handler id token).Sound
  := by
  constructor
  · exact h
  · exact serveAccepted_obeys h
  · exact .refl _
  · intro hover
    cases hover

/-- What becomes of a duty and of the surroundings. -/
structure Goes (d : Duty ν) (w : World ν) (d' : Duty ν) (w' : World ν) : Prop where
  handler : d'.handler = d.handler
  token : d'.stream.token = d.stream.token
  sound : d'.Sound
  turns : w.Turns d.stream.token.IsOver w'

theorem Goes.serve (hd : d.Sound) (h : d.serve? w = some (d', w')) :
  d.Goes w d' w'
  := by
  obtain ⟨hinstalled, hlocal, hreaches, hover⟩ := hd
  rw [serve?] at h
  split at h
  · next op next rest =>
    obtain ⟨⟨answer, world⟩, answered, heq⟩ := Option.map_eq_some_iff.mp h
    cases heq
    rw [rest] at hlocal hreaches hover
    refine ⟨rfl, rfl, ?_, .of_answer hlocal.1 (fun _ h => h) answered⟩
    exact ⟨hinstalled, hlocal.2 answer (World.tells_of_answer answered), hreaches.next answer,
      fun h => (hover h).elim⟩
  · next op next rest =>
    obtain ⟨⟨answer, stream⟩, answered, heq⟩ := Option.map_eq_some_iff.mp h
    cases heq
    rw [rest] at hlocal hreaches hover
    have htoken : stream.token = d.stream.token := WireStream.token_of_answer? answered
    have htold : (Service.below (ν := ν) d.stream.token).tells (.inr op) answer := by
      cases op with
      | token =>
        cases answered
        exact rfl
      | id | read | drain | write | flush | shutdown | cancelWrite | cancelRead
      | setReadDeadline | setWriteDeadline => trivial
    refine ⟨rfl, htoken, ?_, .refl w⟩
    refine ⟨hinstalled, ?_, hreaches.next answer, fun h => (hover h).elim⟩
    rw [htoken]
    exact hlocal.2 answer htold
  · cases h

theorem Goes.release (hd : d.Sound) (w : World ν) (h : d.release? = some d') :
  d.Goes w d' w
  := by
  obtain ⟨hinstalled, hlocal, hreaches, hover⟩ := hd
  rw [release?] at h
  split at h
  · next next rest =>
    cases h
    rw [rest] at hlocal hreaches hover
    refine ⟨rfl, rfl, ?_, .refl w⟩
    exact ⟨hinstalled, hlocal.2 () trivial, hreaches.next (), fun h => (hover h).elim⟩
  · cases h

theorem Goes.leave (hd : d.Sound) (h : d.leave? w = some (d', w')) :
  d.Goes w d' w'
  := by
  have htoken : d.stream.drop.token = d.stream.token := d.stream.token_cancelWrite 0
  rw [leave?] at h
  split at h
  · cases h
  · next hstep =>
    split at h
    · cases h
    · cases h
      refine ⟨rfl, htoken, ⟨hd.installed, ?_, hd.reaches, ?_⟩, .cancel w (.refl _)⟩
      · dsimp only
        rw [htoken]
        exact hd.isLocal
      · intro _
        cases hrest : d.rest with
        | done | panic => trivial
        | step op next => exact absurd hrest (hstep op next)

theorem Goes.receive (hd : d.Sound) (w : World ν) (event : PeerEvent) :
  d.Goes w { d with stream := d.stream.receive event } w
  := by
  have htoken := d.stream.token_receive event
  refine ⟨rfl, htoken, ⟨hd.installed, ?_, hd.reaches, hd.letGo⟩, .refl w⟩
  dsimp only
  rw [htoken]
  exact hd.isLocal

end Duty

/-! ### Calls -/

namespace Call

variable {address : String} {c c' : Call ν} {s s' : Shared ν}

theorem duty?_of_bare (bare : c.strand = none) :
  c.duty? = none
  := by
  rw [duty?, bare, Option.bind_none]

theorem duty?_of_opened {strand : Strand ν} (opened : c.strand = some strand) :
  c.duty? = strand.duty
  := by
  rw [duty?, opened, Option.bind_some]

/-- The tokens above all those that belong to a call. -/
def roots (c : Call ν) : List Token := c.caller :: c.duty?.toList.map fun d => d.stream.token

/-- Whether a token belongs to a call. -/
def Owns (c : Call ν) (t : Token) : Prop := ∃ root ∈ c.roots, root.IsOver t

/-- Whether a call uses no other tokens than its own, and one connection. -/
structure Sound (address : String) (c : Call ν) : Prop where
  below : c.caller.IsOver c.context.token
  trip : Underway c.context.token address c.rest
  near : ∀ strand ∈ c.strand, c.caller.IsOver strand.near.token
  duty : ∀ d ∈ c.duty?, d.Sound

theorem owns_of_caller {t : Token} (h : c.caller.IsOver t) :
  c.Owns t
  :=
  ⟨c.caller, List.mem_cons_self, h⟩

theorem owns_of_duty
    {d : Duty ν} (hd : c.duty? = some d) {t : Token} (h : d.stream.token.IsOver t) :
  c.Owns t
  := by
  refine ⟨d.stream.token, ?_, h⟩
  rw [roots, hd]
  exact List.mem_cons_of_mem _ List.mem_cons_self

theorem close_rest (c : Call ν) (s : Shared ν) (ending : Outcome (Except ClientError Response)) :
  (c.close s ending).1.rest = c.rest
  := by
  rw [close]
  split <;> rfl

theorem close_pool (c : Call ν) (s : Shared ν) (ending : Outcome (Except ClientError Response)) :
  (c.close s ending).2.pool = s.pool
  := by
  rw [close]
  split <;> rfl

/-- What becomes of a call and of what is shared. -/
structure Goes (address : String) (c : Call ν) (s : Shared ν) (c' : Call ν) (s' : Shared ν) :
    Prop where
  sound : c'.Sound address
  caller : c'.caller = c.caller
  handler : s'.handler = s.handler
  token : s'.token = s.token
  turns : s.world.Turns c.Owns s'.world
  /-- A stream that has been accepted stays with the handler that serves it. -/
  accepted : ∀ d ∈ c.duty?, ∃ d' ∈ c'.duty?, d'.handler = d.handler
    ∧ d'.stream.token = d.stream.token
  /-- A stream that is accepted is served by the handler that is installed, under a fresh token. -/
  accepts : c.duty? = none → ∀ d' ∈ c'.duty?, d'.handler = s.handler
    ∧ d'.stream.token = (s.world.tokens.child s.token).1
    ∧ s.world.tokens.next < s'.world.tokens.next

namespace Goes

theorem of_duty_eq
    (hsound : c'.Sound address) (hcaller : c'.caller = c.caller) (hhandler : s'.handler = s.handler)
    (htoken : s'.token = s.token) (hturns : s.world.Turns c.Owns s'.world)
    (hduty : c'.duty? = c.duty?) :
  Goes address c s c' s'
  := by
  refine ⟨hsound, hcaller, hhandler, htoken, hturns, ?_, ?_⟩
  · intro d hd
    exact ⟨d, hduty ▸ hd, rfl, rfl⟩
  · intro hnone d' hd'
    rw [hduty, hnone] at hd'
    cases hd'

/-- What the server does with the stream leaves the rest of the call as it is. -/
theorem of_duty
    (hc : c.Sound address) {strand : Strand ν} (opened : c.strand = some strand)
    {there : Carried} {d d' : Duty ν} (accepted : strand.duty = some d) {world : World ν}
    (h : d.Goes s.world d' world) :
  Goes address c s { c with strand := some { strand with duty := some d', there } }
    { s with world }
  := by
  have hduty : c.duty? = some d := (duty?_of_opened opened).trans accepted
  refine ⟨⟨hc.below, hc.trip, ?_, ?_⟩, rfl, rfl, rfl, ?_, ?_, ?_⟩
  · rintro _ ⟨⟩
    exact hc.near strand opened
  · rintro _ ⟨⟩
    exact h.sound
  · exact h.turns.mono fun t ht => owns_of_duty hduty ht
  · rintro _ hd
    obtain rfl := Option.some.inj (hduty.symm.trans hd)
    exact ⟨d', rfl, h.handler, h.token⟩
  · intro hnone
    rw [hduty] at hnone
    cases hnone

/-- A call that ends lets go of its stream. -/
theorem close
    (hc : c.Sound address) (s : Shared ν) (ending : Outcome (Except ClientError Response)) :
  Goes address c s (c.close s ending).1 (c.close s ending).2
  := by
  rw [Call.close]
  cases opened : c.strand with
  | none =>
    have hduty : c.duty? = none := duty?_of_bare opened
    refine of_duty_eq ⟨hc.below, hc.trip, ?_, ?_⟩ rfl rfl rfl (.refl _) hduty.symm
    · rintro _ ⟨⟩
    · rintro _ ⟨⟩
  | some strand =>
    have hduty : c.duty? = strand.duty := duty?_of_opened opened
    have htoken : strand.near.drop.token = strand.near.token := strand.near.token_cancelWrite 0
    have hnear := hc.near strand opened
    refine of_duty_eq ⟨hc.below, hc.trip, ?_, ?_⟩ rfl rfl rfl
      (.cancel _ (owns_of_caller hnear)) hduty.symm
    · rintro _ ⟨⟩
      exact htoken.symm ▸ hnear
    · intro d hd
      exact hc.duty d (hduty ▸ hd)

theorem of_rest
    (hc : c.Sound address) {rest : Program (Calling ν) (Except ClientError Response)}
    (hrest : Underway c.context.token address rest) {world : World ν}
    (hturns : s.world.Turns c.Owns world) (pool : Pool) :
  Goes address c s { c with rest } { s with pool, world }
  :=
  of_duty_eq ⟨hc.below, hrest, hc.near, hc.duty⟩ rfl rfl rfl hturns rfl

/-- What happens to the stream on the side of the client leaves the other side as it is. -/
theorem of_near
    (hc : c.Sound address) {rest : Program (Calling ν) (Except ClientError Response)}
    (hrest : Underway c.context.token address rest) {strand : Strand ν}
    (opened : c.strand = some strand) {near : WireStream} (htoken : near.token = strand.near.token)
    (s : Shared ν) (back : Carried) :
  Goes address c s { c with rest, strand := some { strand with near, back } } s
  := by
  have hduty : c.duty? = strand.duty := duty?_of_opened opened
  refine of_duty_eq ⟨hc.below, hrest, ?_, ?_⟩ rfl rfl rfl (.refl _) hduty.symm
  · rintro _ ⟨⟩
    exact htoken.symm ▸ hc.near strand opened
  · intro d hd
    exact hc.duty d (hduty ▸ hd)

theorem of_open
    (hc : c.Sound address) {rest : Program (Calling ν) (Except ClientError Response)}
    (hrest : Underway c.context.token address rest) (bare : c.strand = none) (id : Nat) :
  Goes address c s
    { c with rest, strand := some (.opened id (s.world.tokens.child c.context.token).1) }
    { s with world := { s.world with tokens := (s.world.tokens.child c.context.token).2 } }
  := by
  have hduty : c.duty? = none := duty?_of_bare bare
  refine of_duty_eq ⟨hc.below, hrest, ?_, ?_⟩ rfl rfl rfl (.child ..) hduty.symm
  · rintro _ ⟨⟩
    exact hc.below.trans (Token.isOver_child ..)
  · rintro _ ⟨⟩

theorem of_accept
    (hc : c.Sound address) (hinstalled : ∀ handler ∈ s.handler, handler.IsLocal)
    {strand : Strand ν} (opened : c.strand = some strand) (fresh : strand.duty = none) :
  Goes address c s
    { c with
      strand := some
        { strand with
          duty := some (.begin s.handler strand.near.id (s.world.tokens.child s.token).1) } }
    { s with world := { s.world with tokens := (s.world.tokens.child s.token).2 } }
  := by
  have hduty : c.duty? = none := (duty?_of_opened opened).trans fresh
  refine ⟨⟨hc.below, hc.trip, ?_, ?_⟩, rfl, rfl, rfl, .child .., ?_, ?_⟩
  · rintro _ ⟨⟩
    exact hc.near strand opened
  · rintro _ ⟨⟩
    exact .begin hinstalled ..
  · intro d hd
    rw [hduty] at hd
    cases hd
  · rintro - _ ⟨⟩
    exact ⟨rfl, rfl, Nat.lt_succ_self _⟩

theorem of_carryThere
    (hc : c.Sound address) {strand strand' : Strand ν} {load : Load}
    (opened : c.strand = some strand) (h : strand.carryThere? load = some strand') (s : Shared ν) :
  Goes address c s { c with strand := some strand' } s
  := by
  rw [Strand.carryThere?] at h
  cases accepted : strand.duty with
  | none =>
    rw [accepted] at h
    cases h
  | some d =>
    rw [accepted] at h
    obtain ⟨r, -, rfl⟩ := Option.map_eq_some_iff.mp h
    have hduty : c.duty? = some d := (duty?_of_opened opened).trans accepted
    exact of_duty hc opened accepted (.receive (hc.duty d hduty) s.world r.1)

theorem of_carryBack
    (hc : c.Sound address) {strand strand' : Strand ν} {load : Load}
    (opened : c.strand = some strand) (h : strand.carryBack? load = some strand') (s : Shared ν) :
  Goes address c s { c with strand := some strand' } s
  := by
  rw [Strand.carryBack?] at h
  split at h
  · cases h
  · obtain ⟨r, -, rfl⟩ := Option.map_eq_some_iff.mp h
    exact of_near hc hc.trip opened (strand.near.token_receive r.1) s r.2

/-- Whatever a call does uses its own tokens only, and leaves the call as it should be. -/
theorem of_step
    (hc : c.Sound address) (hinstalled : ∀ handler ∈ s.handler, handler.IsLocal) {move : Move}
    (h : Step address c s move c' s') :
  Goes address c s c' s'
  := by
  have htrip := hc.trip
  have hduty : ∀ {strand d}, c.strand = some strand → strand.duty = some d → d.Sound := by
    intro strand d opened accepted
    exact hc.duty d ((duty?_of_opened opened).trans accepted)
  cases h with
  | prepares going rest answered =>
    rw [rest] at htrip
    obtain ⟨hbelow, hnext⟩ := htrip.of_surroundings
    apply of_rest hc (.departing (hnext _ (World.tells_of_answer answered)))
    exact .of_answer hbelow (fun t ht => owns_of_caller (hc.below.trans ht)) answered
  | exchanges going rest opened answered =>
    rw [rest] at htrip
    exact of_near hc (.settled (htrip.of_network trivial _)) opened
      (WireStream.token_of_answer? answered) s _
  | collects going rest opened answered =>
    rw [rest] at htrip
    exact of_near hc (.settled (htrip.of_network trivial _)) opened
      (WireStream.token_of_collect? answered) s _
  | sleeps going rest =>
    rw [rest] at htrip
    exact of_rest hc (.settled (htrip.of_network trivial _)) (.refl _) _
  | rests going rest =>
    rw [rest] at htrip
    exact of_rest hc (.settled (htrip.of_network trivial _)) (.refl _) _
  | finds going rest kept =>
    rw [rest] at htrip
    exact of_rest hc (.asking htrip.of_looking.2 _) (.refl _) _
  | misses going rest bare =>
    rw [rest] at htrip
    exact of_rest hc (.dialing htrip.of_looking.1 htrip.of_looking.2) (.refl _) _
  | fails going rest =>
    rw [rest] at htrip
    exact of_rest hc (.settled (htrip.of_dialing.1 _)) (.refl _) _
  | connects going rest =>
    rw [rest] at htrip
    exact of_rest hc (.holding htrip.of_dialing.2 _) (.refl _) _
  | adopts going rest bare =>
    rw [rest] at htrip
    exact of_rest hc (.asking htrip.of_holding _) (.refl _) _
  | yields going rest kept =>
    rw [rest] at htrip
    exact of_rest hc (.asking htrip.of_holding _) (.refl _) _
  | opens going rest bare live id =>
    rw [rest] at htrip
    exact of_open hc (.settled (htrip.of_openStream _)) bare id
  | strays going rest bare dead id =>
    rw [rest] at htrip
    exact of_rest hc (.settled (htrip.of_openStream _)) (.refl _) _
  | finishes | panics | timesOut | abandons => exact .close hc s _
  | cancelled => exact of_duty_eq hc rfl rfl rfl (.cancel _ (owns_of_caller (.refl _))) rfl
  | accepted opened fresh => exact of_accept hc hinstalled opened fresh
  | carriedThere opened carried => exact of_carryThere hc opened carried s
  | carriedBack opened carried => exact of_carryBack hc opened carried s
  | serves opened accepted served =>
    exact of_duty hc opened accepted (.serve (hduty opened accepted) served)
  | releases opened accepted released =>
    exact of_duty hc opened accepted (.release (hduty opened accepted) s.world released)
  | leaves opened accepted left =>
    exact of_duty hc opened accepted (.leave (hduty opened accepted) left)

theorem mem_roots (h : Goes address c s c' s') {root : Token} (hroot : root ∈ c.roots) :
  root ∈ c'.roots
  := by
  rw [roots] at hroot ⊢
  rw [h.caller]
  cases List.mem_cons.mp hroot with
  | inl heq => exact heq ▸ List.mem_cons_self
  | inr hroot =>
    obtain ⟨d, hd, rfl⟩ := List.mem_map.mp hroot
    obtain ⟨d', hd', -, htoken⟩ := h.accepted d (Option.mem_toList.mp hd)
    exact List.mem_cons_of_mem _ (List.mem_map.mpr ⟨d', Option.mem_toList.mpr hd', htoken⟩)

/-- The only root that a call gets is the fresh token of its stream. -/
theorem of_mem_roots (h : Goes address c s c' s') {root : Token} (hroot : root ∈ c'.roots) :
  root ∈ c.roots
    ∨ root = (s.world.tokens.child s.token).1 ∧ s.world.tokens.next < s'.world.tokens.next
  := by
  rw [roots, h.caller] at hroot
  cases List.mem_cons.mp hroot with
  | inl heq => exact .inl (heq ▸ List.mem_cons_self)
  | inr hroot =>
    obtain ⟨d', hd', rfl⟩ := List.mem_map.mp hroot
    rw [Option.mem_toList] at hd'
    cases hduty : c.duty? with
    | none => exact .inr (h.accepts hduty d' hd').2
    | some d =>
      obtain ⟨d'', hd'', -, htoken⟩ := h.accepted d hduty
      obtain rfl := Option.some.inj (hd'.symm.trans hd'')
      left
      rw [roots, hduty, htoken]
      exact List.mem_cons_of_mem _ List.mem_cons_self

end Goes

end Call

end Client

end StreamCall
