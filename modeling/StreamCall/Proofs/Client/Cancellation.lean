import StreamCall.Proofs.Token
import StreamCall.Rehearsal.Call

/-!
# Cancellation and time limits

A call ends as its round trip does, unless it is given up while it is suspended
(`send_ends`).  What its round trip does by itself is its `Course`; that is interrupted by pauses,
and at the first one in the course of which its caller is cancelled or its time is up, the call
ends.
A round trip that cancels the context it is given does not cancel its caller.
-/

namespace StreamCall.Client

variable {ν σ : Type}

/-! ### What a round trip does by itself -/

/-- A time in which a call is suspended. -/
structure Pause (σ : Type) where
  start : Nat
  /-- When it ends, if it does. -/
  wake : Option Nat
  state : σ

/-- What a round trip does if nobody gives it up. -/
structure Course (σ : Type) where
  pauses : List (Pause σ)
  finish : Finish σ

/-- One more pause before the others. -/
def Course.behind (c : Course σ) (p : Pause σ) : Course σ :=
  { c with pauses := p :: c.pauses }

/-- The course of a round trip from a time on. -/
def Setting.course (setting : Setting ν σ) (now : Nat) (s : σ) :
    Program (Calling ν) (Except ClientError Response) → Course σ
  | .done result => ⟨[], ⟨.done result, now, s⟩⟩
  | .panic payload => ⟨[], ⟨.panicked payload, now, s⟩⟩
  | .step op next =>
    match setting.answer now s op with
    | (.now a, s) => setting.course now s (next a)
    | (.later wake a, s) => (setting.course (max now wake) s (next a)).behind ⟨now, some wake, s⟩
    | (.never, s) => ⟨[⟨now, none, s⟩], ⟨.waiting, now, s⟩⟩

/-! ### What ends a pause early -/

namespace Limits

variable (l : Limits) (setting : Setting ν σ) (p : Pause σ)

/-- When the caller is first found cancelled in a pause, if it is: when the call is suspended, or
before it goes on. -/
def cancelledAt? : Option Nat :=
  if setting.isCancelled p.state then some p.start
  else (l.cancelAt.filter fun t => t ≤ p.start || p.wake.all (t ≤ ·)).map (max p.start)

/-- When the call's time is found to be up in a pause, if it is, and how long that was. -/
def expiredAt? : Option (Nat × Duration) :=
  (l.deadline.filter fun d => d.1 ≤ p.start || p.wake.all (d.1 < ·)).map fun d =>
    (max p.start d.1, d.2)

/-- Whether neither happens. -/
def Spares : Prop := l.cancelledAt? setting p = none ∧ l.expiredAt? p = none

/-- Whether the call is given up at a time of a pause.  When it is suspended the clock is looked at
first, and then the caller. -/
inductive Stops : ClientError → Nat → Prop where
  | cancelled {time : Nat} (h : l.cancelledAt? setting p = some time)
      (hfirst : ∀ e ∈ l.expiredAt? p, p.start < e.1 ∧ time ≤ e.1) : Stops .cancelled time
  | timeout {time : Nat} {limit : Duration} (h : l.expiredAt? p = some (time, limit))
      (hfirst : ∀ t ∈ l.cancelledAt? setting p, time = p.start ∨ time < t) :
    Stops (.timeout limit) time

variable {l setting p}

theorem overdue_of_up {d : Nat × Duration} (hd : l.deadline = some d) {now : Nat}
    (h : d.1 ≤ now) (cancelled : Bool) :
  l.overdue cancelled now = some (.timeout d.2)
  := by
  rw [overdue, hd]
  exact if_pos h

theorem overdue_of_not_up {now : Nat} (h : ∀ d ∈ l.deadline, now < d.1) (cancelled : Bool) :
  l.overdue cancelled now
    = if cancelled || l.cancelAt.any (· ≤ now) then some .cancelled else none
  := by
  rw [overdue]
  cases hd : l.deadline with
  | none => rfl
  | some d => exact if_neg (Nat.not_le.mpr (h d hd))

/-- Of what happens in a pause, what happens first ends it; a caller that is cancelled just when the
time is up comes first. -/
theorem before_eq (wake : Option Nat) :
  l.before wake
    = match l.cancelAt.filter (fun t => wake.all (t ≤ ·)),
        l.deadline.filter (fun d => wake.all (d.1 < ·)) with
      | some t, some d => if t ≤ d.1 then some (.cancelled, t) else some (.timeout d.2, d.1)
      | some t, none => some (.cancelled, t)
      | none, some d => some (.timeout d.2, d.1)
      | none, none => none
  := by
  rw [before]
  generalize l.deadline.filter (fun d => wake.all (d.1 < ·)) = expired
  cases l.cancelAt with
  | none => cases expired <;> rfl
  | some t =>
    cases ht : wake.all (t ≤ ·) with
    | false => cases expired <;> simp [Option.filter, ht]
    | true =>
      cases expired with
      | none => simp [Option.filter, ht]
      | some d => by_cases hle : t ≤ d.1 <;> simp [Option.filter, ht, hle]

theorem cancelledAt?_of_early
    (h : (setting.isCancelled p.state || l.cancelAt.any (· ≤ p.start)) = true) :
  l.cancelledAt? setting p = some p.start
  := by
  rw [cancelledAt?]
  cases hcaller : setting.isCancelled p.state with
  | true => rfl
  | false =>
    rw [hcaller, Bool.false_or] at h
    cases ht : l.cancelAt with
    | none =>
      rw [ht] at h
      cases h
    | some t =>
      rw [ht] at h
      have hpast : t ≤ p.start := by simpa using h
      simp [Option.filter, hpast]

/-- A caller that is not cancelled when the call is suspended may be cancelled later in the
pause. -/
theorem cancelledAt?_of_later
    (h : (setting.isCancelled p.state || l.cancelAt.any (· ≤ p.start)) = false) :
  l.cancelledAt? setting p = l.cancelAt.filter fun t => p.wake.all (t ≤ ·)
  := by
  obtain ⟨hcaller, hpast⟩ := Bool.or_eq_false_iff.mp h
  rw [cancelledAt?, hcaller]
  cases ht : l.cancelAt with
  | none => rfl
  | some t =>
    have hlater : p.start < t := by
      rw [ht] at hpast
      simpa using hpast
    cases hwake : p.wake.all (t ≤ ·) with
    | false =>
      simp [Option.filter, hwake]
      omega
    | true =>
      simp [Option.filter, hwake]
      omega

theorem expiredAt?_of_up {d : Nat × Duration} (hd : l.deadline = some d) (h : d.1 ≤ p.start) :
  l.expiredAt? p = some (p.start, d.2)
  := by
  rw [expiredAt?, hd]
  simp [Option.filter, h]

theorem expiredAt?_of_later (h : ∀ d ∈ l.deadline, p.start < d.1) :
  l.expiredAt? p = l.deadline.filter fun d => p.wake.all (d.1 < ·)
  := by
  rw [expiredAt?]
  cases hd : l.deadline with
  | none => rfl
  | some d =>
    have hlater := h d hd
    have hmax : (max p.start d.1, d.2) = d := by
      rw [Nat.max_eq_right (Nat.le_of_lt hlater)]
    cases hwake : p.wake.all (d.1 < ·) with
    | false =>
      simp [Option.filter, hwake]
      omega
    | true => simp [Option.filter, hwake, hmax]

variable (l setting p)

/-- A pause is over before anything ends it, or the call is given up when it is suspended, or
later. -/
theorem spares_or_stops :
  (l.overdue (setting.isCancelled p.state) p.start = none ∧ l.before p.wake = none
    ∧ l.Spares setting p)
  ∨ (∃ e, l.overdue (setting.isCancelled p.state) p.start = some e ∧ l.Stops setting p e p.start)
  ∨ ∃ e time, l.overdue (setting.isCancelled p.state) p.start = none
    ∧ l.before p.wake = some (e, time) ∧ l.Stops setting p e time
  := by
  by_cases hup : ∃ d ∈ l.deadline, d.1 ≤ p.start
  · obtain ⟨d, hd, hup⟩ := hup
    right
    left
    exact ⟨_, overdue_of_up hd hup _, .timeout (expiredAt?_of_up hd hup) fun _ _ => .inl rfl⟩
  · have hlater : ∀ d ∈ l.deadline, p.start < d.1 := fun d hd =>
      Nat.not_le.mp fun hle => hup ⟨d, hd, hle⟩
    have hoverdue := overdue_of_not_up hlater (setting.isCancelled p.state)
    have hexpired := expiredAt?_of_later hlater
    cases hearly : setting.isCancelled p.state || l.cancelAt.any (· ≤ p.start) with
    | true =>
      right
      left
      refine ⟨_, ?_, .cancelled (cancelledAt?_of_early hearly) ?_⟩
      · rw [hoverdue, hearly, if_pos rfl]
      · rw [hexpired]
        intro d hd
        have hd' := hlater d (Option.mem_filter_iff.mp hd).1
        exact ⟨hd', Nat.le_of_lt hd'⟩
    | false =>
      rw [hearly, if_neg Bool.false_ne_true] at hoverdue
      have hbefore := l.before_eq p.wake
      rw [← cancelledAt?_of_later hearly, ← hexpired] at hbefore
      have hexpires : ∀ d ∈ l.expiredAt? p, p.start < d.1 := by
        rw [hexpired]
        exact fun d hd => hlater d (Option.mem_filter_iff.mp hd).1
      cases ht : l.cancelledAt? setting p with
      | none =>
        cases hd : l.expiredAt? p with
        | none =>
          rw [ht, hd] at hbefore
          exact .inl ⟨hoverdue, hbefore, ht, hd⟩
        | some d =>
          rw [ht, hd] at hbefore
          exact .inr (.inr ⟨_, _, hoverdue, hbefore, .timeout hd (by simp [ht])⟩)
      | some t =>
        cases hd : l.expiredAt? p with
        | none =>
          rw [ht, hd] at hbefore
          exact .inr (.inr ⟨_, _, hoverdue, hbefore, .cancelled ht (by simp [hd])⟩)
        | some d =>
          rw [ht, hd] at hbefore
          dsimp only at hbefore
          by_cases hle : t ≤ d.1
          · rw [if_pos hle] at hbefore
            refine .inr (.inr ⟨_, _, hoverdue, hbefore, .cancelled ht ?_⟩)
            intro d' hd'
            cases hd.symm.trans hd'
            exact ⟨hexpires d hd, hle⟩
          · rw [if_neg hle] at hbefore
            refine .inr (.inr ⟨_, _, hoverdue, hbefore, .timeout hd ?_⟩)
            intro t' ht'
            cases ht.symm.trans ht'
            exact .inr (Nat.not_le.mp hle)

end Limits

/-! ### Races -/

/-- Whether a call ends as its round trip does if no pause is ended early, or else at the first one
that is. -/
def Course.EndsAs (own : Course σ) (limits : Limits) (setting : Setting ν σ) (finish : Finish σ) :
    Prop :=
  (finish = own.finish ∧ ∀ p ∈ own.pauses, limits.Spares setting p)
  ∨ ∃ earlier p later e time, own.pauses = earlier ++ p :: later
    ∧ (∀ q ∈ earlier, limits.Spares setting q) ∧ limits.Stops setting p e time
    ∧ finish = .failed e time p.state

theorem Course.EndsAs.behind
    {own : Course σ} {limits : Limits} {setting : Setting ν σ} {finish : Finish σ}
    (h : own.EndsAs limits setting finish) {p : Pause σ} (hp : limits.Spares setting p) :
  (own.behind p).EndsAs limits setting finish
  := by
  obtain ⟨hfinish, hspares⟩ | ⟨earlier, q, later, e, time, hpauses, hearlier, hstops⟩ := h
  · exact .inl ⟨hfinish, List.forall_mem_cons.mpr ⟨hp, hspares⟩⟩
  · refine .inr ⟨p :: earlier, q, later, e, time, ?_, ?_, hstops⟩
    · rw [Course.behind, hpauses]
      rfl
    · exact List.forall_mem_cons.mpr ⟨hp, hearlier⟩

/-- A pause that is ended early is the last one. -/
theorem Course.EndsAs.stopped
    {own : Course σ} {limits : Limits} {setting : Setting ν σ} {p : Pause σ} {e : ClientError}
    {time : Nat} (h : limits.Stops setting p e time) {later : List (Pause σ)}
    (hpauses : own.pauses = p :: later) :
  own.EndsAs limits setting (.failed e time p.state)
  :=
  .inr ⟨[], p, later, e, time, hpauses, List.forall_mem_nil _, h, rfl⟩

/-- What is made of a round trip, by induction on its operations. -/
theorem race_ends
    (setting : Setting ν σ) (limits : Limits) (now : Nat) (s : σ)
    (p : Program (Calling ν) (Except ClientError Response)) :
  (setting.course now s p).EndsAs limits setting (race setting limits now s p)
  := by
  induction p generalizing now s with
  | done result => exact .inl ⟨rfl, List.forall_mem_nil _⟩
  | panic payload => exact .inl ⟨rfl, List.forall_mem_nil _⟩
  | step op next ih =>
    rw [Setting.course, race]
    -- The race looks at its limits just where the course has a pause.
    cases hanswer : setting.answer now s op with
    | mk reply t =>
      cases reply with
      | now a => exact ih a now t
      | later wake a =>
        obtain ⟨hoverdue, hbefore, hspares⟩ | ⟨e, hoverdue, hstops⟩
            | ⟨e, time, hoverdue, hbefore, hstops⟩ :=
          limits.spares_or_stops setting ⟨now, some wake, t⟩
        · dsimp only at hoverdue hbefore ⊢
          rw [hoverdue, hbefore]
          exact (ih a (max now wake) t).behind hspares
        · dsimp only at hoverdue ⊢
          rw [hoverdue]
          exact .stopped hstops rfl
        · dsimp only at hoverdue hbefore ⊢
          rw [hoverdue, hbefore]
          exact .stopped hstops rfl
      | never =>
        obtain ⟨hoverdue, hbefore, hspares⟩ | ⟨e, hoverdue, hstops⟩
            | ⟨e, time, hoverdue, hbefore, hstops⟩ :=
          limits.spares_or_stops setting ⟨now, none, t⟩
        · dsimp only at hoverdue hbefore ⊢
          rw [hoverdue, hbefore]
          exact .inl ⟨rfl, List.forall_mem_singleton.mpr hspares⟩
        · dsimp only at hoverdue ⊢
          rw [hoverdue]
          exact .stopped hstops rfl
        · dsimp only at hoverdue hbefore ⊢
          rw [hoverdue, hbefore]
          exact .stopped hstops rfl

/-! ### Calls -/

/-- The limits of a call that begins at a time. -/
def Limits.ofCall (cancelAt : Option Nat) (now : Nat) (request : Request) : Limits :=
  ⟨(timeLimit request).map fun limit => (now + limit.ticks, limit), cancelAt⟩

section Reasons

variable {setting : Setting ν σ} {p : Pause σ} {cancelAt : Option Nat} {now time : Nat}
  {request : Request} {limits : Limits}

/-- A caller is found cancelled only if it has been cancelled. -/
theorem Limits.cancelled_of_cancelledAt? (h : limits.cancelledAt? setting p = some time) :
  setting.isCancelled p.state = true ∨ ∃ t ∈ limits.cancelAt, t ≤ time
  := by
  rw [cancelledAt?] at h
  split at h
  · exact .inl ‹_›
  · obtain ⟨t, ht, rfl⟩ := Option.map_eq_some_iff.mp h
    exact .inr ⟨t, (Option.mem_filter_iff.mp ht).1, Nat.le_max_right _ _⟩

/-- So it is, whether it is cancelled before the pause or in its course. -/
theorem Limits.cancelledAt?_ne_none
    (h : setting.isCancelled p.state = true
      ∨ ∃ t ∈ limits.cancelAt, t ≤ p.start ∨ ∀ wake ∈ p.wake, t ≤ wake) :
  limits.cancelledAt? setting p ≠ none
  := by
  rw [cancelledAt?]
  obtain hcancelled | ⟨t, ht, hcourse⟩ := h
  · rw [if_pos hcancelled]
    exact Option.some_ne_none _
  · split
    · exact Option.some_ne_none _
    · have hfound : (decide (t ≤ p.start) || p.wake.all (t ≤ ·)) = true := by
        rw [Bool.or_eq_true, decide_eq_true_iff, Option.all_eq_true]
        simpa using hcourse
      simp [Option.mem_def.mp ht, Option.filter, hfound]

/-- A call's time is found to be up only when it is, and while the call is suspended. -/
theorem Limits.deadline_of_expiredAt? {limit : Duration}
    (h : limits.expiredAt? p = some (time, limit)) :
  ∃ d, limits.deadline = some (d, limit) ∧ d ≤ time
    ∧ (time = p.start ∨ ∀ wake ∈ p.wake, time < wake)
  := by
  obtain ⟨⟨d, limit⟩, hd, hpair⟩ := Option.map_eq_some_iff.mp h
  obtain ⟨rfl, rfl⟩ := Prod.mk.inj hpair
  obtain ⟨hdeadline, hfound⟩ := Option.mem_filter_iff.mp hd
  refine ⟨d, hdeadline, Nat.le_max_right _ _, ?_⟩
  by_cases hup : d ≤ p.start
  · exact .inl (Nat.max_eq_left hup)
  · right
    rw [Nat.max_eq_right (Nat.le_of_not_le hup)]
    rw [Bool.or_eq_true, Option.all_eq_true] at hfound
    simpa [hup] using hfound

/-- A call's time is up only if the request sets a time limit and that has passed. -/
theorem Limits.elapsed_of_expiredAt? {limit : Duration}
    (h : (Limits.ofCall cancelAt now request).expiredAt? p = some (time, limit)) :
  timeLimit request = some limit ∧ limit.nanos ≤ (time - now) * 1000000
    ∧ (time = p.start ∨ ∀ wake ∈ p.wake, time < wake)
  := by
  obtain ⟨d, hdeadline, hpassed, hsuspended⟩ := deadline_of_expiredAt? h
  obtain ⟨limit, hlimit, heq⟩ := Option.map_eq_some_iff.mp hdeadline
  obtain ⟨rfl, rfl⟩ := Prod.mk.inj heq
  refine ⟨hlimit, ?_, hsuspended⟩
  rw [Duration.ticks] at hpassed
  omega

/-- No time limit is zero. -/
theorem timeLimit_eq_some_iff {limit : Duration} :
  timeLimit request = some limit ↔ request.timeout = some limit ∧ 0 < limit.nanos
  := by
  rw [timeLimit, Option.filter_eq_some_iff, decide_eq_true_iff, Nat.pos_iff_ne_zero]

end Reasons

namespace Course.EndsAs

variable {own : Course σ} {setting : Setting ν σ} {finish : Finish σ} {cancelAt : Option Nat}
  {now : Nat} {request : Request}

/-- A call whose caller is cancelled in a pause ends with an error. -/
theorem outcome_of_cancelled
    (h : own.EndsAs (Limits.ofCall cancelAt now request) setting finish) {p : Pause σ}
    (hp : p ∈ own.pauses)
    (hcancelled : (Limits.ofCall cancelAt now request).cancelledAt? setting p ≠ none) :
  finish.outcome = .done (.error .cancelled)
  ∨ ∃ limit, timeLimit request = some limit ∧ finish.outcome = .done (.error (.timeout limit))
  := by
  obtain ⟨-, hspares⟩ | ⟨earlier, q, later, e, time, -, -, hstops, rfl⟩ := h
  · exact absurd (hspares p hp).1 hcancelled
  · cases hstops with
    | cancelled => exact .inl rfl
    | timeout hexpired => exact .inr ⟨_, (Limits.elapsed_of_expiredAt? hexpired).1, rfl⟩

/-- A call whose caller is not cancelled in any pause is not given up as cancelled. -/
theorem own_or_timeout
    (h : own.EndsAs (Limits.ofCall cancelAt now request) setting finish)
    (hfree : ∀ p ∈ own.pauses, (Limits.ofCall cancelAt now request).cancelledAt? setting p = none) :
  finish = own.finish
  ∨ ∃ limit, timeLimit request = some limit ∧ finish.outcome = .done (.error (.timeout limit))
  := by
  obtain ⟨hfinish, -⟩ | ⟨earlier, p, later, e, time, hpauses, -, hstops, rfl⟩ := h
  · exact .inl hfinish
  · cases hstops with
    | timeout hexpired => exact .inr ⟨_, (Limits.elapsed_of_expiredAt? hexpired).1, rfl⟩
    | cancelled hcancelled =>
      have hp : p ∈ own.pauses := by
        rw [hpauses]
        exact List.mem_append_right _ List.mem_cons_self
      rw [hfree p hp] at hcancelled
      cases hcancelled

end Course.EndsAs

/-- A call ends as its round trip does, unless its caller is cancelled or its time is up while it is
suspended.  If the caller's token or one above it has been cancelled beforehand, the call fails at
once and leaves everything as it is, whatever its round trip would do.  Otherwise it ends at the
first pause in the course of which the caller is found cancelled, or the time is over that the
request allows and that is not zero; if there is none, it gives what the round trip gives.  The
round trip gets the context of the caller under a token of its own, and if nobody cancels anything
but that token and what is below it, the call is not given up as cancelled. -/
theorem send_ends
    (answer : Nat → σ → (op : (Calling ν).Op) → Reply ((Calling ν).Answer op) × σ)
    (tokens : σ → Tokens) (caller : Token) (cancelAt : Option Nat) (now : Nat) (s : σ)
    (trip : RoundTrip ν) (ctx : Context) (number : Nat) (request : Request) :
  let setting : Setting ν σ := ⟨answer, fun s => (tokens s).isCancelled caller⟩
  let limits := Limits.ofCall cancelAt now request
  let child : Token := ⟨number :: caller.path⟩
  let inner := ctx.withToken child
  let own := setting.course now s (trip inner request)
  let finish := send setting cancelAt now s trip ctx child request
  let beforehand := (∃ c ∈ (tokens s).cancelled, c.IsOver caller) ∨ ∃ t ∈ cancelAt, t ≤ now
  (beforehand → finish = .failed .cancelled now s)
  ∧ (¬ beforehand →
    own.EndsAs limits setting finish
    ∧ (∀ p ∈ own.pauses,
      ((∃ c ∈ (tokens p.state).cancelled, c.IsOver caller)
        ∨ ∃ t ∈ cancelAt, t ≤ p.start ∨ ∀ wake ∈ p.wake, t ≤ wake) →
      finish.outcome = .done (.error .cancelled)
        ∨ ∃ limit, timeLimit request = some limit
          ∧ finish.outcome = .done (.error (.timeout limit)))
    ∧ (cancelAt = none →
      (∀ p ∈ own.pauses, ∀ c ∈ (tokens p.state).cancelled,
        c ∈ (tokens s).cancelled ∨ child.IsOver c) →
      finish = own.finish
        ∨ ∃ limit, timeLimit request = some limit
          ∧ finish.outcome = .done (.error (.timeout limit))))
  ∧ (∀ p e time, limits.Stops setting p e time →
    e = .cancelled
      ∧ ((∃ c ∈ (tokens p.state).cancelled, c.IsOver caller) ∨ ∃ t ∈ cancelAt, t ≤ time)
    ∨ ∃ limit, e = .timeout limit ∧ request.timeout = some limit ∧ 0 < limit.nanos
      ∧ limit.nanos ≤ (time - now) * 1000000
      ∧ (time = p.start ∨ ∀ wake ∈ p.wake, time < wake))
  ∧ (inner.request = ctx.request ∧ inner.requestId = ctx.requestId
    ∧ inner.bodyLimit = ctx.bodyLimit)
  ∧ ∀ (ts : Tokens) c, child.IsOver c → (ts.cancel c).isCancelled caller = ts.isCancelled caller
  := by
  intro setting limits child inner own finish beforehand
  have hbeforehand : beforehand
      ↔ (setting.isCancelled s || cancelAt.any (· ≤ now)) = true := by
    rw [Bool.or_eq_true, Tokens.isCancelled_iff, Option.any_eq_true]
    simp [beforehand]
  refine ⟨fun h => if_pos (hbeforehand.mp h), fun h => ?_, ?_, ⟨rfl, rfl, rfl⟩, ?_⟩
  · have hrace : finish = race setting limits now s (trip inner request) :=
      if_neg (mt hbeforehand.mpr h)
    have hends : own.EndsAs limits setting finish := by
      rw [hrace]
      exact race_ends setting limits now s (trip inner request)
    refine ⟨hends, ?_, ?_⟩
    · intro p hp hcancelled
      apply hends.outcome_of_cancelled hp
      apply Limits.cancelledAt?_ne_none
      exact hcancelled.imp_left Tokens.isCancelled_iff.mpr
    · intro hnobody hown
      apply hends.own_or_timeout
      intro p hp
      rw [Option.eq_none_iff_forall_ne_some]
      intro time hcancelled
      obtain hcancelled | ⟨t, ht, -⟩ := Limits.cancelled_of_cancelledAt? hcancelled
      · obtain ⟨c, hc, hover⟩ := Tokens.isCancelled_iff.mp hcancelled
        obtain hbefore | hchild := hown p hp c hc
        · exact h (.inl ⟨c, hbefore, hover⟩)
        · exact Token.not_isOver_of_child hchild hover
      · cases hnobody.symm.trans ht
  · intro p e time hstops
    cases hstops with
    | cancelled hcancelled =>
      left
      refine ⟨rfl, ?_⟩
      exact (Limits.cancelled_of_cancelledAt? hcancelled).imp_left Tokens.isCancelled_iff.mp
    | timeout hexpired =>
      right
      obtain ⟨hlimit, helapsed, hsuspended⟩ := Limits.elapsed_of_expiredAt? hexpired
      obtain ⟨htimeout, hpos⟩ := timeLimit_eq_some_iff.mp hlimit
      exact ⟨_, rfl, htimeout, hpos, helapsed, hsuspended⟩
  · intro ts c hc
    rw [Bool.eq_iff_iff, Tokens.isCancelled_cancel_iff, or_iff_left (Token.not_isOver_of_child hc)]

/-- A request without a time limit. -/
def plainRequest : Request := ⟨"a:1", none, [], .empty⟩

/-- A round trip that cancels the context it is given, is suspended, and then answers. -/
def restless : RoundTrip Rehearsal.Seen :=
  Rehearsal.terminal [.cancelChild, .yield, .echo] ⟨[], .empty⟩

/-- A world in which a token and one below it have been made. -/
def twoTokens : World Rehearsal.Seen := { World.fresh fun _ => 0 with tokens := ⟨2, []⟩ }

/-- What it answers is what the call gives. -/
theorem send_ends_restless :
  let finish := send (Quiet.setting default ⟨[0]⟩) none 0 twoTokens restless (.ofToken ⟨[0]⟩)
    ⟨[1, 0]⟩ plainRequest
  ¬ ((∃ c ∈ twoTokens.tokens.cancelled, c.IsOver ⟨[0]⟩) ∨ ∃ t ∈ (none : Option Nat), t ≤ 0)
  ∧ finish.outcome = .done (.ok ⟨[], .empty⟩)
  := by
  intro finish
  have hnot : ¬ ((∃ c ∈ twoTokens.tokens.cancelled, c.IsOver ⟨[0]⟩)
      ∨ ∃ t ∈ (none : Option Nat), t ≤ 0) := by
    simp [twoTokens]
  have hown : ∀ p ∈ ((Quiet.setting default ⟨[0]⟩).course 0 twoTokens
        (restless (.ofToken ⟨[1, 0]⟩) plainRequest)).pauses,
      ∀ c ∈ p.state.tokens.cancelled,
        c ∈ twoTokens.tokens.cancelled ∨ Token.IsOver ⟨[1, 0]⟩ c := by
    intro p hp c hc
    obtain rfl := List.eq_of_mem_singleton hp
    obtain rfl := List.eq_of_mem_singleton hc
    exact .inr (.refl _)
  obtain ⟨-, hends, -⟩ := send_ends (Quiet.setting default ⟨[0]⟩).answer World.tokens ⟨[0]⟩ none 0
    twoTokens restless (.ofToken ⟨[0]⟩) 1 plainRequest
  obtain hfinish | ⟨limit, hlimit, -⟩ := (hends hnot).2.2 rfl hown
  · exact ⟨hnot, congrArg Finish.outcome hfinish⟩
  · cases hlimit

/-- A round trip that cancels its caller and answers without being suspended in between is not given
up: the call gives its answer, though the caller has been cancelled before. -/
theorem makeCall_answers_after_cancelParent :
  let report := Rehearsal.makeCall (fun _ => 0)
    [.terminal [.cancelParent, .echo] ⟨[], .empty⟩] ⟨plainRequest, .ofToken default, false⟩
  report.cancelled = true ∧ report.finish.outcome = .done (.ok ⟨[], .empty⟩)
  :=
  ⟨rfl, rfl⟩

end StreamCall.Client
