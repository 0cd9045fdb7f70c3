import StreamCall.Proofs.Server.Standard

/-!
# Answers are all or nothing

A unary function answers a request completely or not at all, in whatever order standard
middlewares are put around it (`serve_answers_or_withholds`).  A service that succeeds has called
the function once, has written the envelope of its response and has closed the side that is
written; any other service has written nothing and has not closed it.
-/

namespace StreamCall

open Middleware

variable {ν α : Type}

/-! ### Writing an envelope -/

namespace MemoryStream

variable {s : MemoryStream}

theorem run_write (s : MemoryStream) (data : Bytes) (next : Except IoError Nat → Stream.Use α) :
  s.run (.step (.write data) next) = (s.write data).2.run (next (s.write data).1)
  :=
  rfl

theorem run_shutdown (s : MemoryStream) (next : Except IoError Unit → Stream.Use α) :
  s.run (.step .shutdown next) = s.shutdown.2.run (next s.shutdown.1)
  :=
  rfl

/-- A side that is open takes a write as a whole. -/
theorem write_of_opened (h : s.side = .opened) (data : Bytes) :
  s.write data = (.ok data.length, { s with written := s.written ++ data })
  := by
  simp only [write, h]

theorem shutdown_of_opened (h : s.side = .opened) :
  s.shutdown = (.ok (), { s with side := .closed })
  := by
  simp only [shutdown, h]

theorem run_writeAll (h : s.side = .opened) (data : Bytes) :
  s.run (Stream.writeAll data) = (.done (.ok ()), { s with written := s.written ++ data })
  := by
  cases data with
  | nil =>
    rw [List.append_nil]
    rfl
  | cons b rest =>
    rw [Stream.writeAll, List.length_cons, Stream.writeRest, run_write, write_of_opened h]
    dsimp only
    rw [if_neg (by simp), List.drop_length, Stream.writeRest]
    rfl

/-- Writing an envelope to a side that is open writes the whole document and closes the side. -/
theorem run_writeEnvelope (h : s.side = .opened) (envelope : Envelope) :
  s.run (Stream.writeEnvelope envelope)
    = (.done (.ok ()), { s with written := s.written ++ envelope.encode, side := .closed })
  := by
  have hopened : ({ s with written := s.written ++ envelope.encode } : MemoryStream).side
      = .opened := h
  rw [Stream.writeEnvelope, run_bind (run_writeAll h _)]
  dsimp only
  rw [run_shutdown, shutdown_of_opened hopened]
  rfl

end MemoryStream

namespace Layered

variable {n : Nat} {s : Layered ν}

/-- So it does under layers. -/
theorem run_writeEnvelope (h : s.stage.stream.side = .opened) (envelope : Envelope) :
  ∃ t : Layered ν, s.run n (Serving.onStream (Stream.writeEnvelope envelope)) = (.done (.ok ()), t)
    ∧ t.stage.world = s.stage.world
    ∧ t.stage.stream.output = (.closed, s.stage.stream.written ++ envelope.encode)
  := by
  obtain ⟨layers, hthrough⟩ := MemoryStream.run_through_onLayers_of_unread
    (Stream.writeEnvelope_uses envelope) (MemoryStream.run_writeEnvelope h envelope) n s.layers
  exact ⟨_, run_onStream hthrough, rfl, rfl⟩

/-- A program on the surroundings alone leaves layers and stream as they are. -/
theorem run_onSurroundings (n : Nat) (s : Layered ν) (p : Program (Ambient ν) α) :
  s.run n (Serving.onSurroundings p)
    = ((p.run World.answer s.stage.world).1,
      { s with stage := { s.stage with world := (p.run World.answer s.stage.world).2 } })
  := by
  induction p generalizing s with
  | done a => rfl
  | panic q => rfl
  | step op next ih =>
    have hstep : Serving.onSurroundings (.step op next)
        = .step (S := Service ν) (.inl op) fun answer => Serving.onSurroundings (next answer) := rfl
    rw [hstep, Program.run]
    cases h : s.stage.world.answer op with
    | none => exact run_inl_waiting h _
    | some r => exact (run_inl h _).trans (ih r.1 _)

end Layered

/-! ### What is left of a request -/

namespace Stage

/-- Whether a function has been called, once, and its response has been written as a whole. -/
structure Answers (s t : Stage (Sighting ν)) (ctx : Context) (request : Request)
    (response : Response) : Prop where
  sightings :
    t.world.sightings = s.world.sightings ++ [.called ctx request, .returned (.ok response)]
  written : t.stream.written = s.stream.written ++ response.envelope.encode
  closed : t.stream.side = .closed

/-- Whether nothing has been written and the side that is written has not been closed. -/
structure Withholds (s t : Stage (Sighting ν)) : Prop where
  written : t.stream.written = s.stream.written
  unclosed : t.stream.side ≠ .closed

end Stage

namespace Layered

variable {n : Nat} {s : Layered (Sighting ν)}

/-- A unary function that returns a response answers with it. -/
theorem run_unary_of_ok
    {f : Unary ν} {ctx : Context} {request : Request} (hrequest : ctx.request = some request)
    (hopened : s.stage.stream.side = .opened) {response : Response}
    (hend : ((f ctx request).run World.answer s.stage.world.plain).1 = .done (.ok response)) :
  ∃ t : Layered (Sighting ν), s.run n (unary f.observed ctx) = (.done (.ok ()), t)
    ∧ s.stage.Answers t.stage ctx request response
  := by
  obtain ⟨w, hf, hsightings⟩ := run_observed f ctx request s.stage.world
  have hrun := run_onSurroundings n s (f.observed ctx request)
  rw [hf, hend] at hrun
  rw [hend] at hsightings
  obtain ⟨t, hwrite, hworld, houtput⟩ := run_writeEnvelope (n := n)
    (s := { s with stage := { s.stage with world := w } }) hopened response.envelope
  rw [unary, hrequest]
  use t
  constructor
  · apply (run_bind hrun _).trans
    exact run_bind hwrite _
  · constructor
    · rw [hworld]
      exact hsightings
    · exact congrArg Prod.snd houtput
    · exact congrArg Prod.fst houtput

/-- A unary function by itself answers, or it ends in another way and the output is as it was. -/
theorem run_unary (f : Unary ν) (ctx : Context) (hopened : s.stage.stream.side = .opened) :
  (∃ request response, ∃ t : Layered (Sighting ν),
      s.run n (unary f.observed ctx) = (.done (.ok ()), t)
        ∧ s.stage.Answers t.stage ctx request response)
    ∨ ∃ outcome, ∃ t : Layered (Sighting ν), s.run n (unary f.observed ctx) = (outcome, t)
      ∧ outcome ≠ .done (.ok ()) ∧ t.stage.stream.output = s.stage.stream.output
  := by
  cases hrequest : ctx.request with
  | none =>
    rw [unary, hrequest]
    exact .inr ⟨_, s, rfl, by simp, rfl⟩
  | some request =>
    obtain ⟨w, hf, -⟩ := run_observed f ctx request s.stage.world
    have hrun := run_onSurroundings n s (f.observed ctx request)
    rw [hf] at hrun
    cases hend : ((f ctx request).run World.answer s.stage.world.plain).1 with
    | done result =>
      cases result with
      | error e =>
        rw [hend] at hrun
        rw [unary, hrequest]
        exact .inr ⟨_, _, run_bind hrun _, by simp, rfl⟩
      | ok response => exact .inl ⟨request, response, run_unary_of_ok hrequest hopened hend⟩
    | panicked q =>
      rw [hend] at hrun
      rw [unary, hrequest]
      exact .inr ⟨_, _, run_bind_panicked hrun _, by simp, rfl⟩
    | waiting =>
      rw [hend] at hrun
      rw [unary, hrequest]
      exact .inr ⟨_, _, run_bind_waiting hrun _, by simp, rfl⟩

end Layered

namespace Middleware.Standard

theorem turnAll_waiting (parts : List Standard) :
  turnAll parts .waiting = .waiting
  := by
  induction parts with
  | nil => rfl
  | cons part parts ih =>
    rw [turnAll, List.foldr_cons, ← turnAll, ih]
    cases part <;> rfl

/-- Only a handler that has succeeded makes a chain succeed. -/
theorem ok_of_turnAll
    {parts : List Standard} {outcome : Outcome (Except HandlerError Unit)}
    (h : turnAll parts outcome = .done (.ok ())) :
  outcome = .done (.ok ())
  := by
  cases outcome with
  | done result => rwa [turnAll_done] at h
  | panicked q =>
    obtain hpanicked | herror := turnAll_panicked_cases parts q
    · rw [hpanicked] at h
      cases h
    · rw [herror] at h
      cases h
  | waiting =>
    rw [turnAll_waiting] at h
    cases h

/-- What a success signs is as it was. -/
theorem Signed.of_ok {output output' : WriteSide × Bytes}
    (h : Signed (.done (.ok ())) output output') :
  output' = output
  := by
  obtain h | ⟨e, h, -⟩ := h
  · exact h
  · cases h

end Middleware.Standard

namespace Stage

open Middleware.Standard

variable {s s' t t' : Stage (Sighting ν)}

/-- An output that is only signed has been withheld. -/
theorem Withholds.of_signed
    {outcome : Outcome (Except HandlerError Unit)} (hopened : s.stream.side = .opened)
    (h : Signed outcome s.stream.output t.stream.output) :
  s.Withholds t
  := by
  obtain houtput | ⟨e, -, houtput⟩ := h
  · have hside : t.stream.side = .opened := (congrArg Prod.fst houtput).trans hopened
    exact ⟨congrArg Prod.snd houtput, hside ▸ nofun⟩
  · have hside : t.stream.side = .reset e.wireCode := by
      apply (congrArg Prod.fst houtput).trans
      rw [MemoryStream.output, hopened]
      rfl
    exact ⟨congrArg Prod.snd houtput, hside ▸ nofun⟩

/-- Only the notes and the output count. -/
theorem Answers.congr
    {ctx : Context} {request : Request} {response : Response}
    (h : s'.Answers t' ctx request response) (hbefore : s'.world.notes = s.world.notes)
    (hwritten : s'.stream.output = s.stream.output) (hafter : t.world.notes = t'.world.notes)
    (houtput : t.stream.output = t'.stream.output) :
  s.Answers t ctx request response
  where
  sightings := by
    rw [World.sightings_congr hafter, h.sightings, World.sightings_congr hbefore]
  written := by
    have hwritten' : s'.stream.written = s.stream.written := congrArg Prod.snd hwritten
    rw [← hwritten', ← h.written]
    exact congrArg Prod.snd houtput
  closed := (congrArg Prod.fst houtput).trans h.closed

/-- Whatever standard middlewares are put around a unary function, a service that succeeds has
called it once and has written its response, and any other has written nothing. -/
theorem serve_answers_or_withholds
    (parts : List Standard) (f : Unary ν) (ctx : Context) (hopened : s.stream.side = .opened) :
  ∃ outcome, ∃ t : Stage (Sighting ν),
    s.serve (chain (parts.map middleware) (unary f.observed)) ctx = (outcome, t)
      ∧ (outcome = .done (.ok ()) →
        ∃ ctx' request response, s.Answers t ctx' request response)
      ∧ (outcome ≠ .done (.ok ()) → s.Withholds t)
  := by
  obtain ⟨outcome, t, hserve, hrun⟩ :=
    Layered.run_zero s (chain (parts.map middleware) (unary f.observed) ctx)
  use outcome, t, hserve
  -- Either some part refuses the request, or all of them let it through to the function.
  obtain ⟨e, u, -, hrefused, -, hsigned⟩ | ⟨ctx', n, s', halike, hcalls⟩ :=
    run_chain parts (unary f.observed) ctx 0 ⟨[], s⟩
  · cases hrun.symm.trans hrefused
    exact ⟨nofun, fun _ => .of_signed hopened hsigned⟩
  · have hopened' : s'.stage.stream.side = .opened :=
      (congrArg Prod.fst halike.output).trans hopened
    obtain ⟨request, response, t', hcalled, hanswers⟩ | ⟨outcome', t', hcalled, hfailed, houtput⟩ :=
      Layered.run_unary (n := n) f ctx' hopened'
    · obtain ⟨u, hchain, hnotes, hsigned⟩ := hcalls _ _ hcalled
      cases hrun.symm.trans hchain
      rw [turnAll_done] at hsigned ⊢
      have hanswers' : s.Answers t ctx' request response :=
        hanswers.congr halike.notes halike.output hnotes hsigned.of_ok
      exact ⟨fun _ => ⟨ctx', request, response, hanswers'⟩, fun h => (h rfl).elim⟩
    · obtain ⟨u, hchain, -, hsigned⟩ := hcalls _ _ hcalled
      cases hrun.symm.trans hchain
      rw [houtput, halike.output] at hsigned
      exact ⟨fun h => (hfailed (ok_of_turnAll h)).elim, fun _ => .of_signed hopened hsigned⟩

/-- A context that already has a request. -/
def requestedContext : Context := (default : Context).withRequest ⟨"", none, [0x68, 0x69], .empty⟩

/-- Parts without order, of which two catch panics and two limit what is read. -/
def jumbledParts : List Standard :=
  [.errorHandler, .recovery, .maxBody 1, .logTraffic (.both true), .attachRequestId, .maxBody 2,
    .recovery]

/-- A function that panics at every body. -/
def faltering : Unary Unit := fun _ _ => .panic (.text "no answer")

/-- A function that answers with the body. -/
def repeating : Unary Unit := fun _ request => .done (.ok ⟨request.body, .empty⟩)

/-- A stream without input in surroundings where nothing has been noted. -/
def unheardStage : Stage (Sighting Unit) := .ofInput (fun _ => 0) 0 []

/-- Around one function these parts write nothing, and around the other its response. -/
theorem serve_answers_or_withholds_faltering :
  unheardStage.stream.side = .opened
    ∧ (∃ t : Stage (Sighting Unit),
      unheardStage.serve (chain (jumbledParts.map middleware) (unary faltering.observed))
          requestedContext
        = (.done (.error (.ofPanic (.text "no answer"))), t)
      ∧ unheardStage.Withholds t)
    ∧ ∃ t : Stage (Sighting Unit),
      unheardStage.serve (chain (jumbledParts.map middleware) (unary repeating.observed))
          requestedContext
        = (.done (.ok ()), t)
      ∧ ∃ ctx request response, unheardStage.Answers t ctx request response
  := by
  have hopened : unheardStage.stream.side = .opened := rfl
  refine ⟨hopened, ?_, ?_⟩
  · have hfails : (unheardStage.serve
        (chain (jumbledParts.map middleware) (unary faltering.observed)) requestedContext).1
        = .done (.error (.ofPanic (.text "no answer"))) := rfl
    obtain ⟨outcome, t, hserve, -, hwithholds⟩ :=
      serve_answers_or_withholds jumbledParts faltering requestedContext hopened
    rw [hserve] at hfails
    cases hfails
    exact ⟨t, hserve, hwithholds nofun⟩
  · obtain ⟨outcome, t, hserve, hrun⟩ := Layered.run_zero unheardStage
      (chain (jumbledParts.map middleware) (unary repeating.observed) requestedContext)
    have hparts : Standard.decodeRequest ∉ jumbledParts := by decide
    have hrequested : requestedContext.request = some ⟨"", none, [0x68, 0x69], .empty⟩ := rfl
    obtain ⟨ctx, n, s, hrequest, halike, hcalls⟩ := run_chain_of_requested hparts
      (unary repeating.observed) hrequested 0 ⟨[], unheardStage⟩
    obtain ⟨t', hanswered, -⟩ := Layered.run_unary_of_ok (n := n) (f := repeating) hrequest
      ((congrArg Prod.fst halike.output).trans hopened) rfl
    obtain ⟨u, hchain⟩ := hcalls _ _ hanswered
    rw [turnAll_done] at hchain
    cases hrun.symm.trans hchain
    obtain ⟨outcome', t'', hserve', hanswers, -⟩ :=
      serve_answers_or_withholds jumbledParts repeating requestedContext hopened
    cases hserve.symm.trans hserve'
    exact ⟨t, hserve, hanswers rfl⟩

end Stage

end StreamCall
