import StreamCall.Proofs.Client.Upkeep

/-!
# A call with and without others

A call mirrors another one if it differs in nothing but the number of the connection it is to use
(`Call.Mirrors`), and what is shared mirrors what is shared with others if all the more that they
have cancelled is theirs (`Shared.Mirrors`).  Whatever a call can do among others, it can do where
it mirrors itself (`Call.Mirrors.step`): where a connection is kept that others have opened, it
opens one of its own.
-/

namespace StreamCall

variable {ν α : Type}

/-! ### Surroundings -/

/-- Whether surroundings are like others, but for tokens of others that have been cancelled
there. -/
structure World.Mirrors (theirs : Token → Prop) (w w' : World ν) : Prop where
  source : w'.source = w.source
  clock : w'.clock = w.clock
  drawn : w'.drawn = w.drawn
  next : w'.tokens.next = w.tokens.next
  still_cancelled : ∀ c ∈ w'.tokens.cancelled, c ∈ w.tokens.cancelled
  cancelled : ∀ c ∈ w.tokens.cancelled, c ∈ w'.tokens.cancelled ∨ theirs c

/-- Whether tokens below one do not show what becomes of those of others. -/
def Token.IsFree (t : Token) (theirs : Token → Prop) : Prop :=
  ∀ u v, t.IsOver u → theirs v → ¬ v.IsOver u

namespace World.Mirrors

variable {theirs theirs' own : Token → Prop} {w w' w₁ : World ν} {t : Token}

theorem mono (h : w.Mirrors theirs w') (htheirs : ∀ c, theirs c → theirs' c) :
  w.Mirrors theirs' w'
  :=
  { h with cancelled := fun c hc => (h.cancelled c hc).imp_right (htheirs c) }

theorem isCancelled_eq (h : w.Mirrors theirs w') (ht : t.IsFree theirs) {u : Token}
    (hu : t.IsOver u) :
  w'.tokens.isCancelled u = w.tokens.isCancelled u
  := by
  rw [Bool.eq_iff_iff, Tokens.isCancelled_iff, Tokens.isCancelled_iff]
  constructor
  · rintro ⟨c, hc, hover⟩
    exact ⟨c, h.still_cancelled c hc, hover⟩
  · rintro ⟨c, hc, hover⟩
    cases h.cancelled c hc with
    | inl hc => exact ⟨c, hc, hover⟩
    | inr htheirs => exact absurd hover (ht u c hu htheirs)

theorem child_eq (h : w.Mirrors theirs w') (t : Token) :
  (w'.tokens.child t).1 = (w.tokens.child t).1
  := by
  rw [Tokens.child, Tokens.child, h.next]

theorem root (h : w.Mirrors theirs w') :
  Mirrors theirs { w with tokens := w.tokens.root.2 } { w' with tokens := w'.tokens.root.2 }
  :=
  { h with next := congrArg Nat.succ h.next }

theorem child (h : w.Mirrors theirs w') (t t' : Token) :
  Mirrors theirs { w with tokens := (w.tokens.child t).2 }
    { w' with tokens := (w'.tokens.child t').2 }
  :=
  { h with next := congrArg Nat.succ h.next }

theorem cancel (h : w.Mirrors theirs w') (t : Token) :
  Mirrors theirs { w with tokens := w.tokens.cancel t }
    { w' with tokens := w'.tokens.cancel t }
  := by
  refine { h with still_cancelled := ?_, cancelled := ?_ }
  · intro c hc
    cases List.mem_cons.mp hc with
    | inl heq => exact List.mem_cons.mpr (.inl heq)
    | inr hc => exact List.mem_cons_of_mem _ (h.still_cancelled c hc)
  · intro c hc
    cases List.mem_cons.mp hc with
    | inl heq => exact .inl (List.mem_cons.mpr (.inl heq))
    | inr hc => exact (h.cancelled c hc).imp_left (List.mem_cons_of_mem _)

/-- Whoever uses no other tokens than those below a free one is answered alike. -/
theorem answer
    (h : w.Mirrors theirs w') (ht : t.IsFree theirs) {op : AmbientOp ν} (hop : op.IsBelow t)
    {answer : op.Answer} (answered : w.answer op = some (answer, w₁)) :
  ∃ w₁', w'.answer op = some (answer, w₁') ∧ w₁.Mirrors theirs w₁'
  := by
  cases op with
  | log | note =>
    cases answered
    exact ⟨_, rfl, { h with }⟩
  | random n =>
    cases answered
    have hrandom : w'.random n = ((w.random n).1, (w'.random n).2) := by
      rw [World.random, World.random, h.source, h.drawn]
    refine ⟨_, congrArg some hrandom, { h with drawn := ?_ }⟩
    exact congrArg (· + n) h.drawn
  | now =>
    cases answered
    exact ⟨w', congrArg (fun clock => some (clock, w')) h.clock, h⟩
  | isCancelled u =>
    cases answered
    exact ⟨w', congrArg (fun cancelled => some (cancelled, w')) (h.isCancelled_eq ht hop), h⟩
  | cancel u =>
    cases answered
    exact ⟨_, rfl, h.cancel u⟩
  | branch u =>
    cases answered
    refine ⟨_, ?_, h.child u u⟩
    rw [World.answer]
    exact congrArg (fun token => some (token, _)) (h.child_eq u)
  | pause | hang => cases answered

/-- What others do is noticed by the time, by what they have drawn, and by nothing else. -/
theorem of_turns
    (h : w.Mirrors theirs w') (hturns : w.Turns own w₁) (hown : ∀ c, own c → theirs' c)
    (htheirs : ∀ c, theirs c → theirs' c) :
  w₁.Mirrors theirs' (Client.Crowd.passed w' w₁.clock w₁.drawn w₁.tokens.next)
  := by
  refine ⟨h.source.trans hturns.source.symm, rfl, rfl, rfl, ?_, ?_⟩
  · intro c hc
    exact hturns.still_cancelled c (h.still_cancelled c hc)
  · intro c hc
    cases hturns.cancelled c hc with
    | inl hc => exact (h.cancelled c hc).imp_right (htheirs c)
    | inr hc => exact .inr (hown c hc)

end World.Mirrors

namespace Client

/-! ### Duties -/

/-- What a server does with a stream under a free token it does alike. -/
theorem Duty.serve?_of_mirrors
    {theirs : Token → Prop} {d d' : Duty ν} {w w' w₁ : World ν} (h : w.Mirrors theirs w')
    (hd : d.Sound) (hfree : d.stream.token.IsFree theirs)
    (served : d.serve? w = some (d', w₁)) :
  ∃ w₁', d.serve? w' = some (d', w₁') ∧ w₁.Mirrors theirs w₁'
  := by
  have hlocal := hd.isLocal
  rw [serve?] at served ⊢
  split at served
  · next op next rest =>
    rw [rest] at hlocal
    obtain ⟨⟨answer, world⟩, answered, heq⟩ := Option.map_eq_some_iff.mp served
    cases heq
    obtain ⟨w₁', answered', hmirrors⟩ := h.answer hfree hlocal.1 answered
    exact ⟨w₁', congrArg (Option.map _) answered', hmirrors⟩
  · next op next rest =>
    obtain ⟨⟨answer, stream⟩, answered, heq⟩ := Option.map_eq_some_iff.mp served
    cases heq
    have hanswered : d.stream.answer? w'.clock op = some (answer, stream) := h.clock ▸ answered
    exact ⟨w', congrArg (Option.map _) hanswered, h⟩
  · cases served

theorem Duty.leave?_of_mirrors
    {theirs : Token → Prop} {d d' : Duty ν} {w w' w₁ : World ν} (h : w.Mirrors theirs w')
    (left : d.leave? w = some (d', w₁)) :
  ∃ w₁', d.leave? w' = some (d', w₁') ∧ w₁.Mirrors theirs w₁'
  := by
  rw [leave?] at left ⊢
  split at left
  · cases left
  · next hstep =>
    split at left
    · cases left
    · next going =>
      cases left
      refine ⟨_, ?_, h.cancel _⟩
      rw [if_neg going]

/-! ### Calls -/

/-- Whether a program is about to adopt a connection or to open a stream on one. -/
def takesConnection : Program (Calling ν) α → Bool
  | .step (.inr (.adopt _ _)) _ => true
  | .step (.inr (.openStream _)) _ => true
  | _ => false

/-- The same program, but for the number of the connection that it adopts or uses. -/
inductive Alike (address : String) : Program (Calling ν) α → Program (Calling ν) α → Prop where
  | refl (p : Program (Calling ν) α) : Alike address p p
  | holding {k : Except ClientError Nat → Program (Calling ν) α} (n n' : Nat) :
    Alike address (holding address k n) (holding address k n')
  | asking {k : Except ClientError Nat → Program (Calling ν) α} (n n' : Nat) :
    Alike address (asking k n) (asking k n')

namespace Alike

variable {p p' : Program (Calling ν) α} {address : String}
  {k : Except ClientError Nat → Program (Calling ν) α} {n : Nat}

theorem of_holding (h : Alike address (Client.holding address k n) p') :
  ∃ n', p' = Client.holding address k n'
  := by
  generalize hp : Client.holding address k n = p at h
  cases h with
  | refl => exact ⟨n, hp.symm⟩
  | holding m n' =>
    obtain ⟨rfl, rfl⟩ := holding_inj hp
    exact ⟨n', rfl⟩
  | asking => cases hp

theorem of_asking (h : Alike address (Client.asking k n) p') :
  ∃ n', p' = Client.asking k n'
  := by
  generalize hp : Client.asking k n = p at h
  cases h with
  | refl => exact ⟨n, hp.symm⟩
  | holding => cases hp
  | asking m n' =>
    cases hp
    exact ⟨n', rfl⟩

/-- Whoever neither adopts a connection nor uses one does the same. -/
theorem eq_of_not_takes (h : Alike address p p') (hnot : takesConnection p = false) :
  p' = p
  := by
  cases h with
  | refl => rfl
  | holding n n' => cases hnot
  | asking n n' => cases hnot

end Alike

/-- Whether what is shared is like what is shared with others, but for tokens of theirs, and no
connection is kept that is not kept there. -/
structure Shared.Mirrors (address : String) (theirs : Token → Prop) (s s' : Shared ν) : Prop where
  token : s'.token = s.token
  world : s.world.Mirrors theirs s'.world
  bare : s.pool.get? address = none → s'.pool.get? address = none

theorem Shared.Mirrors.mono
    {address : String} {theirs theirs' : Token → Prop} {s s' : Shared ν}
    (h : s.Mirrors address theirs s') (htheirs : ∀ c, theirs c → theirs' c) :
  s.Mirrors address theirs' s'
  :=
  { h with world := h.world.mono htheirs }

namespace Call

/-- Whether calls are the same, but for the number of the connection they are to use. -/
structure Mirrors (address : String) (c c' : Call ν) : Prop where
  rest : Alike address c.rest c'.rest
  eq : c' = { c with rest := c'.rest }

/-- What a call and what is shared are after some moves, if they can be made. -/
def moves? (c : Call ν) (s : Shared ν) : List Move → Option (Call ν × Shared ν)
  | [] => some (c, s)
  | move :: rest => (c.move? s move).bind fun r => r.1.moves? r.2 rest

theorem isWaiting_of_alike
    {address : String} {c : Call ν} {rest : Program (Calling ν) (Except ClientError Response)}
    (h : Alike address c.rest rest) :
  isWaiting { c with rest } = c.isWaiting
  := by
  rw [isWaiting, isWaiting]
  dsimp only
  generalize c.rest = rest' at h
  cases h <;> rfl

variable {address : String} {theirs : Token → Prop} {c c' c₁ : Call ν} {s s' s₁ : Shared ν}

theorem moves?_of_step
    {move : Move} {c₁' : Call ν} {s₁' : Shared ν} (hpool : s'.pool.Serves address)
    (h : Step address c' s' move c₁' s₁') (moves : List Move) :
  c'.moves? s' (move :: moves) = c₁'.moves? s₁' moves
  := by
  rw [moves?, move?_of_step hpool h, Option.bind_some]

/-- Whether a call has come to mirror another one by the same move, or by moves that get it a
connection if that move is one of them. -/
def Keeps (address : String) (theirs : Token → Prop) (c' : Call ν) (s' : Shared ν) (move : Move)
    (c₁ : Call ν) (s₁ : Shared ν) : Prop :=
  ∃ moves c₁' s₁', c'.moves? s' moves = some (c₁', s₁') ∧ c₁.Mirrors address c₁'
    ∧ s₁.Mirrors address theirs s₁' ∧ s₁'.handler = s'.handler
    ∧ (moves = [move] ∨ move.connects = true ∧ ∀ move ∈ moves, move.connects = true)

namespace Keeps

theorem of_step
    {move : Move} {c₁' : Call ν} {s₁' : Shared ν} (hpool : s'.pool.Serves address)
    (hstep : Step address c' s' move c₁' s₁') (hcall : c₁.Mirrors address c₁')
    (hs : s₁.Mirrors address theirs s₁') (hhandler : s₁'.handler = s'.handler) :
  Keeps address theirs c' s' move c₁ s₁
  :=
  ⟨[move], c₁', s₁', moves?_of_step hpool hstep [], hcall, hs, hhandler, .inl rfl⟩

/-- A call that has found the connection of others opens one of its own without them. -/
theorem of_found
    {f : ClientError → Program (Calling ν) (Except ClientError Response)}
    {k : Except ClientError Nat → Program (Calling ν) (Except ClientError Response)}
    (hs : s.Mirrors address theirs s') (hpool : s'.pool.Serves address) (going : c.ending = none)
    (rest : c.rest = looking address f k) {connection : Nat}
    (kept : s.pool.get? address = some connection) (bare : s'.pool.get? address = none) :
  Keeps address theirs c s' .look { c with rest := asking k connection } s
  := by
  let dialed : Shared ν := { s' with pool := { s'.pool with dials := s'.pool.dials + 1 } }
  let adopted : Shared ν :=
    { dialed with
      pool := { dialed.pool with kept := (address, s'.pool.dials) :: dialed.pool.kept } }
  have hdialed : dialed.pool.Serves address :=
    ⟨hpool.not_shut, fun c hc => Nat.lt_succ_of_lt (hpool.closed_lt c hc),
      fun c hc => Nat.lt_succ_of_lt (hpool.kept_lt c hc), hpool.kept_live⟩
  have hlook : Step address c s' .look { c with rest := dialing address f k } s' :=
    .misses going rest bare
  have hdial : Step address { c with rest := dialing address f k } s' (.dialed none)
      { c with rest := holding address k s'.pool.dials } dialed := .connects going rfl
  have hadopt : Step address { c with rest := holding address k s'.pool.dials } dialed .adopt
      { c with rest := asking k s'.pool.dials } adopted := .adopts going rfl bare
  refine ⟨[.look, .dialed none, .adopt], { c with rest := asking k s'.pool.dials }, adopted, ?_,
    ⟨.asking _ _, rfl⟩, ⟨hs.token, hs.world, ?_⟩, rfl, .inr ⟨rfl, ?_⟩⟩
  · rw [moves?_of_step hpool hlook, moves?_of_step hpool hdial, moves?_of_step hdialed hadopt]
    rfl
  · intro hnone
    rw [kept] at hnone
    cases hnone
  · simp [Move.connects]

/-- Calls that end alike let go of their streams alike. -/
theorem of_close
    {move : Move} {rest : Program (Calling ν) (Except ClientError Response)}
    {ending : Outcome (Except ClientError Response)} (h : Alike address c.rest rest)
    (hs : s.Mirrors address theirs s') (hpool : s'.pool.Serves address)
    (hstep : Step address { c with rest } s' move (close { c with rest } s' ending).1
      (close { c with rest } s' ending).2) :
  Keeps address theirs { c with rest } s' move (c.close s ending).1 (c.close s ending).2
  := by
  apply of_step hpool hstep
  · rw [close, close]
    cases c.strand <;> exact ⟨h, rfl⟩
  · rw [close, close]
    cases c.strand with
    | none => exact hs
    | some strand => exact ⟨hs.token, hs.world.cancel _, hs.bare⟩
  · rw [close]
    cases c.strand <;> rfl

end Keeps

/-- Whatever a call does among others, it can do where it mirrors itself. -/
theorem Mirrors.step
    {move : Move} (h : c.Mirrors address c') (hs : s.Mirrors address theirs s')
    (hc : c.Sound address) (hfree : ∀ root ∈ c.roots, root.IsFree theirs)
    (hpool : s.pool.Serves address) (hpool' : s'.pool.Serves address)
    (hasked : ∀ n ∈ c.asked?, s.pool.get? address = some n)
    (hasked' : ∀ n ∈ c'.asked?, s'.pool.get? address = some n)
    (haccept : move = .accept → s'.handler = s.handler) (hstep : Step address c s move c₁ s₁) :
  Keeps address theirs c' s' move c₁ s₁
  := by
  obtain ⟨hrest, heq⟩ := h
  generalize c'.rest = rest' at hrest heq
  subst heq
  have htrip := hc.trip
  have hcaller : c.caller.IsFree theirs := hfree c.caller List.mem_cons_self
  have hsame : takesConnection c.rest = false → rest' = c.rest := hrest.eq_of_not_takes
  have hduty : ∀ {strand d}, c.strand = some strand → strand.duty = some d →
      d.Sound ∧ d.stream.token.IsFree theirs := by
    intro strand d opened accepted
    have hd : c.duty? = some d := (duty?_of_opened opened).trans accepted
    refine ⟨hc.duty d hd, hfree _ ?_⟩
    rw [roots, hd]
    exact List.mem_cons_of_mem _ List.mem_cons_self
  cases hstep with
  | prepares going rest answered =>
    obtain rfl := hsame (by rw [rest]; rfl)
    rw [rest] at htrip
    have hcontext : c.context.token.IsFree theirs := fun u v hu =>
      hcaller u v (hc.below.trans hu)
    obtain ⟨world, answered', hworld⟩ :=
      hs.world.answer hcontext htrip.of_surroundings.1 answered
    exact .of_step hpool' (.prepares going rest answered') ⟨.refl _, rfl⟩
      ⟨hs.token, hworld, hs.bare⟩ rfl
  | exchanges going rest opened answered =>
    obtain rfl := hsame (by rw [rest]; rfl)
    exact .of_step hpool' (.exchanges going rest opened (hs.world.clock ▸ answered))
      ⟨.refl _, rfl⟩ hs rfl
  | collects going rest opened answered =>
    obtain rfl := hsame (by rw [rest]; rfl)
    exact .of_step hpool' (.collects going rest opened (hs.world.clock ▸ answered))
      ⟨.refl _, rfl⟩ hs rfl
  | sleeps going rest =>
    obtain rfl := hsame (by rw [rest]; rfl)
    exact .of_step hpool' (.sleeps going rest) ⟨.refl _, rfl⟩ hs rfl
  | rests going rest =>
    obtain rfl := hsame (by rw [rest]; rfl)
    exact .of_step hpool' (.rests going rest) ⟨.refl _, rfl⟩ hs rfl
  | finds going rest kept =>
    obtain rfl := hsame (by rw [rest]; rfl)
    -- What others have opened may be missing here.
    cases kept' : s'.pool.get? address with
    | none => exact .of_found hs hpool' going rest kept kept'
    | some connection =>
      exact .of_step hpool' (.finds going rest kept') ⟨.asking _ _, rfl⟩ hs rfl
  | misses going rest bare =>
    obtain rfl := hsame (by rw [rest]; rfl)
    exact .of_step hpool' (.misses going rest (hs.bare bare)) ⟨.refl _, rfl⟩ hs rfl
  | fails going rest =>
    obtain rfl := hsame (by rw [rest]; rfl)
    exact .of_step hpool' (.fails going rest) ⟨.refl _, rfl⟩ hs rfl
  | connects going rest =>
    obtain rfl := hsame (by rw [rest]; rfl)
    exact .of_step hpool' (.connects going rest) ⟨.holding _ _, rfl⟩
      ⟨hs.token, hs.world, hs.bare⟩ rfl
  | adopts going rest bare =>
    rw [rest] at hrest
    obtain ⟨n', rfl⟩ := hrest.of_holding
    refine .of_step hpool' (.adopts going rfl (hs.bare bare)) ⟨.asking _ n', rfl⟩
      ⟨hs.token, hs.world, ?_⟩ rfl
    simp [Pool.get?]
  | yields going rest kept =>
    rw [rest] at hrest
    obtain ⟨n', rfl⟩ := hrest.of_holding
    have hbare : s.pool.get? address ≠ none := Option.ne_none_iff_exists'.mpr ⟨_, kept⟩
    cases kept' : s'.pool.get? address with
    | none =>
      exact .of_step hpool' (.adopts going rfl kept') ⟨.asking _ n', rfl⟩
        ⟨hs.token, hs.world, fun hnone => absurd hnone hbare⟩ rfl
    | some other =>
      exact .of_step hpool' (.yields going rfl kept') ⟨.asking _ other, rfl⟩
        ⟨hs.token, hs.world, fun hnone => absurd hnone hbare⟩ rfl
  | @opens k connection going rest bare live id =>
    rw [rest] at hrest
    obtain ⟨n', rfl⟩ := hrest.of_asking
    have hlive := hpool'.kept_live n' (hasked' n' rfl)
    refine .of_step hpool'
      (Step.opens (c := { c with rest := asking k n' }) (k := k) going rfl bare hlive id)
      ⟨.refl _, ?_⟩ ⟨hs.token, hs.world.child _ _, hs.bare⟩ rfl
    rw [hs.world.child_eq]
  | strays going rest bare dead id =>
    have hkept := hasked _ (by rw [asked?, rest]; rfl)
    rw [hpool.kept_live _ hkept] at dead
    cases dead
  | finishes going rest =>
    obtain rfl := hsame (by rw [rest]; rfl)
    exact .of_close hrest hs hpool' (.finishes going rest)
  | panics going rest =>
    obtain rfl := hsame (by rw [rest]; rfl)
    exact .of_close hrest hs hpool' (.panics going rest)
  | timesOut going deadline waiting due =>
    exact .of_close hrest hs hpool' (.timesOut going deadline
      ((isWaiting_of_alike hrest).trans waiting) (hs.world.clock ▸ due))
  | abandons going waiting cancelled =>
    exact .of_close hrest hs hpool' (.abandons going ((isWaiting_of_alike hrest).trans waiting)
      ((hs.world.isCancelled_eq hcaller (.refl _)).trans cancelled))
  | cancelled =>
    exact .of_step hpool' .cancelled ⟨hrest, rfl⟩ ⟨hs.token, hs.world.cancel _, hs.bare⟩ rfl
  | accepted opened fresh =>
    have haccepted : Step address { c with rest := rest' } s' _ _ _ := .accepted opened fresh
    refine .of_step hpool' haccepted ⟨hrest, ?_⟩ ⟨hs.token, hs.world.child _ _, hs.bare⟩ rfl
    rw [hs.token, hs.world.child_eq, haccept rfl]
  | carriedThere opened carried =>
    exact .of_step hpool' (.carriedThere opened carried) ⟨hrest, rfl⟩ hs rfl
  | carriedBack opened carried =>
    exact .of_step hpool' (.carriedBack opened carried) ⟨hrest, rfl⟩ hs rfl
  | serves opened accepted served =>
    obtain ⟨hd, hdfree⟩ := hduty opened accepted
    obtain ⟨world, served', hworld⟩ := Duty.serve?_of_mirrors hs.world hd hdfree served
    exact .of_step hpool' (.serves opened accepted served') ⟨hrest, rfl⟩
      ⟨hs.token, hworld, hs.bare⟩ rfl
  | releases opened accepted released =>
    exact .of_step hpool' (.releases opened accepted released) ⟨hrest, rfl⟩ hs rfl
  | leaves opened accepted left =>
    obtain ⟨world, left', hworld⟩ := Duty.leave?_of_mirrors hs.world left
    exact .of_step hpool' (.leaves opened accepted left') ⟨hrest, rfl⟩
      ⟨hs.token, hworld, hs.bare⟩ rfl

end Call

end Client

end StreamCall
