import StreamCall.Proofs.Client.Alone

/-!
# Calls that do not notice one another

In a crowd that begins with nobody (`Crowd.Starts`), every call comes to what it would come to
alone, and no exchange of the handler splits a stream (`Crowd.calls_isolated`).
-/

namespace StreamCall.Client

variable {ν : Type}

namespace Crowd

variable {c c' : Crowd ν} {i : Nat}

/-- Whether a crowd is one that nobody has come to: the client is not closed, the token above
those of accepted streams is one that has been given out, and neither middlewares nor the handler
that is installed use what is not their own. -/
structure Starts (c : Crowd ν) : Prop where
  nobody : c.calls = []
  serves : c.shared.pool.Serves c.address
  token_lt : ∀ n ∈ c.shared.token.path, n < c.shared.world.tokens.next
  installed : ∀ handler ∈ c.shared.handler, handler.IsLocal
  clientMiddlewares : ∀ m ∈ c.client.middlewares, m.KeepsLocal
  serverMiddlewares : ∀ m ∈ c.server.middlewares, m.KeepsLocal

theorem Starts.sound (h : c.Starts) :
  c.Sound
  := by
  have hnone : ∀ (i : Nat) m, c.calls[i]? = some m → False := by
    intro i m hm
    rw [h.nobody] at hm
    cases hm
  constructor
  · exact Plan.roundTrip_isLocal h.clientMiddlewares
  · exact fun handler hhandler => Server.Plan.wrap_isLocal h.serverMiddlewares hhandler
  · exact h.installed
  · exact fun i m hm => (hnone i m hm).elim
  · exact ⟨h.token_lt, fun i m hm => (hnone i m hm).elim, fun i m hm => (hnone i m hm).elim,
      fun i _ m _ hm => (hnone i m hm).elim⟩
  · exact ⟨h.serves, fun i m hm => (hnone i m hm).elim, fun i _ m _ hm => (hnone i m hm).elim,
      fun i m hm => (hnone i m hm).elim⟩

/-- A crowd that nobody has come to tracks itself, whatever handler is installed. -/
theorem Starts.tracks (h : c.Starts) (handler : Option (Handler ν)) (i : Nat) :
  c.Tracks i (c.withHandler handler)
  := by
  constructor
  · rfl
  · rfl
  · exact ⟨rfl, ⟨rfl, rfl, rfl, rfl, fun _ h => h, fun _ h => .inl h⟩, fun h => h⟩
  · exact fun _ => h.nobody
  · intro m hm
    rw [h.nobody] at hm
    cases hm

/-- What has become of a call is what becomes of it alone, against the handler that serves its
stream. -/
theorem Starts.alone
    (hstart : c.Starts) {events : List (Event ν)} (hlocal : ∀ event ∈ events, event.IsLocal)
    (hrun : c.run? events = some c') {m : Call ν} (hm : c'.calls[i]? = some m) :
  ∃ (alone : List (Event ν)) (d : Crowd ν), (c.withHandler m.handler?).run? alone = some d
    ∧ (∀ event ∈ alone, event.upgrade? = none)
    ∧ (c.withHandler m.handler?).schedule 0 alone = c.schedule i events
    ∧ ∃ rest, d.calls = [{ m with rest }]
  := by
  have hm' := (hstart.sound.run hlocal hrun).calls i m hm
  -- Alone, the handler is installed from the start that is not known before the end.
  have hhandler : ∀ installed ∈ m.handler?, installed.IsLocal := by
    intro installed hinstalled
    obtain ⟨duty, hduty, hinstalled⟩ := Option.bind_eq_some_iff.mp hinstalled
    exact (hm'.duty duty hduty).installed installed hinstalled
  have hd : (c.withHandler m.handler?).Sound := Starts.sound { hstart with installed := hhandler }
  have hserved : ∀ x duty, c'.calls[i]? = some x → x.duty? = some duty →
      duty.handler = m.handler? := by
    intro x duty hx hduty
    obtain rfl := Option.some.inj (hm.symm.trans hx)
    rw [Call.handler?, hduty, Option.bind_some]
  obtain ⟨alone, d, halone, hplain, hschedule, -, htracks⟩ :=
    (hstart.tracks m.handler? i).run hstart.sound hd hlocal hrun hserved
  obtain ⟨m', hcalls, hmirrors⟩ := htracks.present m hm
  exact ⟨alone, d, halone, hplain, hschedule, m'.rest, hmirrors.eq ▸ hcalls⟩

/-- Calls are isolated, and no exchange of the handler splits a stream.

* A stream that is accepted is served by the handler that was installed last before, with the
  middlewares of the server around it: whatever happens later, what has been done is what that
  handler does, and the server lets go of the stream only once it has ended.
* What has become of a call is what becomes of it alone, against the handler that serves its
  stream: the same happens to it at the same times, but that it may open a connection of its own.
* The connection that is kept is kept and stays alive, and nobody changes the pool but calls that
  were opening others before. -/
theorem calls_isolated
    {events : List (Event ν)} (hstart : c.Starts)
    (hlocal : ∀ handler, Event.upgrade handler ∈ events → handler.IsLocal)
    (hrun : c.run? events = some c') :
  (∀ (before after : List (Event ν)) (i : Nat), events = before ++ .move i .accept :: after →
    ∃ m duty, c'.calls[i]? = some m ∧ m.duty? = some duty
      ∧ duty.handler = c.installed before ∧ (serveAccepted duty.handler).Reaches duty.rest
      ∧ (duty.isOver = true → duty.rest.IsOver))
    ∧ (∀ (i : Nat) (m : Call ν), c'.calls[i]? = some m →
      ∃ (alone : List (Event ν)) (d : Crowd ν), (c.withHandler m.handler?).run? alone = some d
        ∧ (∀ event ∈ alone, event.upgrade? = none)
        ∧ (c.withHandler m.handler?).schedule 0 alone = c.schedule i events
        ∧ ∃ rest, d.calls = [{ m with rest }])
    ∧ (∀ (before after : List (Event ν)) (b : Crowd ν) (n : Nat), events = before ++ after →
      c.run? before = some b → b.shared.pool.get? c.address = some n →
      c'.shared.pool.get? c.address = some n ∧ c'.shared.pool.isLive n = true
        ∧ ((∀ m ∈ b.calls, m.isOpening = false) → c'.shared.pool = b.shared.pool))
  := by
  have hc := hstart.sound
  have hevents : ∀ event ∈ events, event.IsLocal := by
    intro event hevent
    cases event with
    | upgrade handler => exact hlocal handler hevent
    | come | pass | move => trivial
  refine ⟨?_, ?_, ?_⟩
  · rintro before after i rfl
    exact hc.accepted_served hevents hrun
  · intro i m hm
    exact hstart.alone hevents hrun hm
  · rintro before after b n rfl hbefore hn
    exact hc.kept_alive hevents hrun hbefore hn

/-- A client and a server with the usual chain, which have not met. -/
def strangers : Crowd Unit where
  client := ⟨.standard, [injectRequestId]⟩
  server := ⟨⟨true, .standard⟩, Middleware.defaultChain 0⟩
  address := "a"
  shared :=
    { handler := none
      token := ⟨[0]⟩
      pool := .empty
      world := { World.fresh fun _ => 0 with tokens := ⟨1, []⟩ } }
  calls := []

theorem strangers_starts :
  strangers.Starts
  where
  nobody := rfl
  serves := ⟨rfl, nofun, nofun, nofun⟩
  token_lt := by decide
  installed := nofun
  clientMiddlewares := by
    intro m hm
    rw [List.mem_singleton.mp hm]
    exact injectRequestId_keepsLocal
  serverMiddlewares := Middleware.defaultChain_keepsLocal 0

/-- Answers with nothing. -/
def silent : Handler Unit := unary fun _ _ => .done (.ok ⟨[], .empty⟩)

/-- Always fails. -/
def failing : Handler Unit := unary fun _ _ => .done (.error missingRequest)

/-- A call opens a connection and a stream on it. -/
def opening : List (Event Unit) :=
  [.upgrade silent, .come (.ofToken ⟨[]⟩) ⟨"a", none, [], .empty⟩, .move 0 .proceed, .move 0 .look,
    .move 0 (.dialed none), .move 0 .adopt, .move 0 (.opened 0)]

/-- The handler is exchanged while the stream is served. Another call comes, and the first one is
cancelled. -/
def meeting : List (Event Unit) :=
  opening ++ .move 0 .accept ::
    [.move 0 .serve, .upgrade failing, .come (.ofToken ⟨[]⟩) ⟨"a", none, [], .empty⟩,
      .move 1 .proceed, .move 1 .look, .move 1 (.opened 4), .move 0 .cancel, .move 0 .abandon,
      .move 1 .accept, .move 1 .serve, .move 0 .serve]

theorem meeting_isLocal (handler : Handler Unit) (h : Event.upgrade handler ∈ meeting) :
  handler.IsLocal
  := by
  simp only [meeting, opening, List.cons_append, List.nil_append, List.mem_cons,
    Event.upgrade.injEq, reduceCtorEq, false_or, or_false, List.not_mem_nil] at h
  rcases h with rfl | rfl
  · exact unary_isLocal fun _ _ => trivial
  · exact unary_isLocal fun _ _ => trivial

/-- The first stream stays with the handler it was accepted with, and the second call uses the
connection of the first. -/
theorem calls_isolated_meeting :
  (strangers.Starts ∧ ∀ handler, Event.upgrade handler ∈ meeting → handler.IsLocal)
  ∧ ∃ d, strangers.run? meeting = some d
    ∧ (∃ m duty, d.calls[0]? = some m ∧ m.duty? = some duty
      ∧ duty.handler = some (strangers.server.wrap silent)
      ∧ ∃ alone e rest, (strangers.withHandler m.handler?).run? alone = some e
        ∧ e.calls = [{ m with rest }])
    ∧ d.shared.pool = ⟨[("a", 0)], [], 1, 0, false⟩
  := by
  have hrun : (strangers.run? meeting).isSome = true := by decide +kernel
  have hopening : ((strangers.run? opening).map fun b =>
      (b.shared.pool, b.calls.all fun m => !m.isOpening))
      = some (⟨[("a", 0)], [], 1, 0, false⟩, true) := by decide +kernel
  obtain ⟨d, hd⟩ := Option.isSome_iff_exists.mp hrun
  obtain ⟨b, hb, hbefore⟩ := Option.map_eq_some_iff.mp hopening
  obtain ⟨hpool, hidle⟩ := Prod.mk.inj hbefore
  obtain ⟨hserved, halone, hkept⟩ := calls_isolated strangers_starts meeting_isLocal hd
  refine ⟨⟨strangers_starts, meeting_isLocal⟩, d, hd, ?_, ?_⟩
  · obtain ⟨m, duty, hm, hduty, hhandler, -⟩ := hserved opening _ 0 rfl
    obtain ⟨alone, e, hrun, -, -, rest, hcalls⟩ := halone 0 m hm
    exact ⟨m, duty, hm, hduty, hhandler, alone, e, rest, hrun, hcalls⟩
  · have hget : b.shared.pool.get? strangers.address = some 0 := by
      rw [hpool]
      decide
    obtain ⟨-, -, hsame⟩ := hkept opening _ b 0 rfl hb hget
    refine (hsame ?_).trans hpool
    intro m hm
    simpa using List.all_eq_true.mp hidle m hm

end Crowd

end StreamCall.Client
