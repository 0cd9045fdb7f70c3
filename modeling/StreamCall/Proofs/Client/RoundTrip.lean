import StreamCall.Client.Delivery
import StreamCall.Client.Plan
import StreamCall.Proofs.Program
import StreamCall.Proofs.Envelope.RoundTrip
import StreamCall.Proofs.Stream.Wire

/-!
# Round trips over a network that delivers

What the parts of a round trip do when everything arrives: middlewares that give requests an
id stamp a request once (`run_chain_injectRequestId`), a connection is found where one is up
(`run_connection`), and the request is sent and the response collected on a stream of its own
(`run_onStream`).
-/

namespace StreamCall.Client

variable {ν α β : Type}

namespace Delivery

/-- Runs a program of a call over the network. -/
def run (d : Delivery ν) (w : World ν) (p : Program (Calling ν) α) :
    Outcome (α × Delivery ν) × World ν :=
  (Program.through meaning d p).run World.answer w

theorem run_bind
    {d d' : Delivery ν} {w w' : World ν} {p : Program (Calling ν) α} {a : α}
    (h : d.run w p = (.done (a, d'), w')) (f : α → Program (Calling ν) β) :
  d.run w (p.bind f) = d'.run w' (f a)
  := by
  rw [run, Program.through_bind, Program.run_bind, ← run, h]
  rfl

theorem run_ask_bind
    (d : Delivery ν) (w : World ν) (op : CallOp) (next : op.Answer → Program (Calling ν) α) :
  d.run w ((ask op).bind next)
    = ((d.meaning (.inr op)).bind fun r =>
      Program.through meaning r.2 (next r.1)).run World.answer w
  :=
  rfl

theorem run_ask
    {d d' : Delivery ν} {w w' : World ν} {op : CallOp} {a : op.Answer}
    (h : (d.meaning (.inr op)).run World.answer w = (.done (a, d'), w'))
    (next : op.Answer → Program (Calling ν) α) :
  d.run w ((ask op).bind next) = d'.run w' (next a)
  := by
  rw [run_ask_bind, Program.run_bind, h]
  rfl

theorem run_ask_waiting
    {d : Delivery ν} {w w' : World ν} {op : CallOp}
    (h : (d.meaning (.inr op)).run World.answer w = (.waiting, w'))
    (next : op.Answer → Program (Calling ν) α) :
  d.run w ((ask op).bind next) = (.waiting, w')
  := by
  rw [run_ask_bind, Program.run_bind, h]

/-- A program on the surroundings alone leaves the network as it is. -/
theorem run_onSurroundings
    (d : Delivery ν) {w w' : World ν} {p : Program (Ambient ν) α} {a : α}
    (h : p.run World.answer w = (.done a, w')) :
  d.run w (onSurroundings p) = (.done (a, d), w')
  := by
  induction p generalizing w with
  | done a =>
    cases h
    rfl
  | panic q => cases h
  | step op next ih =>
    have hstep : d.run w (onSurroundings (.step op next))
        = (Program.step (S := Ambient ν) op fun answer =>
          Program.through meaning d (onSurroundings (next answer))).run World.answer w := rfl
    rw [hstep]
    cases hanswer : w.answer op with
    | none =>
      rw [Program.run_step_waiting hanswer] at h
      cases h
    | some r =>
      rw [Program.run_step hanswer] at h ⊢
      exact ih r.1 h

/-- A program on a stream of the client uses that stream. -/
theorem run_onStream
    {d : Delivery ν} {w : World ν} {stream : Nat} {s s' : WireStream} {p : Stream.Use α} {a : α}
    (hstream : d.streams[stream]? = some s) (h : s.use? w.clock p = some (a, s')) :
  d.run w (onStream stream p)
    = (.done (a, { d with streams := d.streams.set stream s' }), w)
  := by
  induction p generalizing d s with
  | done a =>
    cases h
    obtain ⟨hlt, rfl⟩ := List.getElem?_eq_some_iff.mp hstream
    rw [List.set_getElem_self]
    rfl
  | panic q => cases h
  | step op next ih =>
    rw [WireStream.use?] at h
    cases hanswer : s.answer? w.clock op with
    | none =>
      rw [hanswer] at h
      cases h
    | some r =>
      rw [hanswer] at h
      have hstep : d.run w (onStream stream (.step op next))
          = ((d.settled stream ((d.streams[stream]?).bind fun s => s.answer? w.clock op)).bind
            fun r => Program.through meaning r.2 (onStream stream (next r.1))).run
              World.answer w := rfl
      obtain ⟨hlt, -⟩ := List.getElem?_eq_some_iff.mp hstream
      have hset : (d.streams.set stream r.2)[stream]? = some r.2 := List.getElem?_set_self hlt
      rw [hstep, hstream, Option.bind_some, hanswer]
      have hrest := @ih r.1 { d with streams := d.streams.set stream r.2 } r.2 hset h
      rw [List.set_set] at hrest
      exact hrest

end Delivery

/-- A client reads at least one byte at once. -/
theorem Plan.readBuffer_pos (client : Plan ν) :
  0 < client.settings.readBuffer
  := by
  rw [settings, Config.effective]
  dsimp only
  split
  · decide
  · omega

/-! ### Ids of requests -/

/-- The request that leaves a client with `k` middlewares that give requests an id: if there are
any, a request without an id gets the one in the context, or else a fresh one. -/
def stamped (k : Nat) (ctx : Context) (fresh : RequestId) (request : Request) : Request :=
  if k = 0 ∨ request.headers.contains RequestId.header = true then request
  else
    { request with
      headers := request.headers.insert RequestId.header (ctx.requestId.getD fresh).text }

/-- A request that has an id passes all middlewares that give requests one. -/
theorem chain_injectRequestId_of_contains
    {request : Request} (h : request.headers.contains RequestId.header = true) (k : Nat)
    (trip : RoundTrip ν) (ctx : Context) :
  chain (List.replicate k injectRequestId) trip ctx request = trip ctx request
  := by
  induction k with
  | zero => rfl
  | succ k ih =>
    have hfirst : chain (List.replicate (k + 1) injectRequestId) trip ctx request
        = injectRequestId (chain (List.replicate k injectRequestId) trip) ctx request := rfl
    rw [hfirst, injectRequestId, if_pos h, ih]

/-- Middlewares that give requests an id do so once: if there are any, and the request has
none. -/
theorem chain_injectRequestId
    (k : Nat) (trip : RoundTrip ν) (ctx : Context) (request : Request) :
  chain (List.replicate k injectRequestId) trip ctx request
    = if k = 0 ∨ request.headers.contains RequestId.header = true then trip ctx request
      else
        (onSurroundings (idToInject ctx)).bind fun id =>
          trip ctx { request with headers := request.headers.insert RequestId.header id.text }
  := by
  by_cases hcontains : request.headers.contains RequestId.header = true
  · rw [if_pos (.inr hcontains), chain_injectRequestId_of_contains hcontains]
  · cases k with
    | zero => rfl
    | succ k =>
      have hfirst : chain (List.replicate (k + 1) injectRequestId) trip ctx request
          = injectRequestId (chain (List.replicate k injectRequestId) trip) ctx request := rfl
      rw [if_neg (by simp [hcontains]), hfirst, injectRequestId, if_neg hcontains]
      apply Program.bind_congr
      intro id
      apply chain_injectRequestId_of_contains
      rw [Headers.contains, Headers.get?_insert, if_pos rfl]
      rfl

theorem run_idToInject (ctx : Context) (w : World ν) :
  ∃ w', (idToInject ctx).run World.answer w
      = (.done (ctx.requestId.getD (.ofRandom (w.random 16).1)), w')
    ∧ w'.notes = w.notes ∧ w'.tokens = w.tokens
  := by
  have hgenerate : RequestId.generate.run World.answer w
      = (.done (.ofRandom (w.random 16).1), (w.random 16).2) := rfl
  rw [idToInject]
  cases ctx.requestId with
  | none => exact ⟨_, hgenerate, rfl, rfl⟩
  | some id => exact ⟨w, rfl, rfl, rfl⟩

/-- However many middlewares give requests an id, a request is stamped at most once. -/
theorem Delivery.run_chain_injectRequestId
    (d : Delivery ν) (w : World ν) (k : Nat) (trip : RoundTrip ν) (ctx : Context)
    (request : Request) :
  ∃ w', d.run w (chain (List.replicate k injectRequestId) trip ctx request)
      = d.run w' (trip ctx (stamped k ctx (.ofRandom (w.random 16).1) request))
    ∧ w'.notes = w.notes
  := by
  rw [chain_injectRequestId, stamped]
  split
  · exact ⟨w, rfl, rfl⟩
  · obtain ⟨w', hid, hnotes, -⟩ := run_idToInject ctx w
    exact ⟨w', run_bind (run_onSurroundings d hid) _, hnotes⟩

/-! ### Connections -/

namespace Delivery

/-- Whether a call to an address gets a connection that is alive: one is kept for it, or one can
be opened. -/
def Reaches (d : Delivery ν) (address : String) : Prop :=
  (d.pool.lookup address).1.isSome = true
  ∨ (∃ target, dialTarget address = .ok target)
    ∧ d.pool.establish.2.isLive d.pool.establish.1 = true

end Delivery

namespace Pool

theorem isLive_of_lookup {p : Pool} {address : String} {connection : Nat}
    (h : (p.lookup address).1 = some connection) :
  (p.lookup address).2.isLive connection = true
  := by
  rw [lookup] at h ⊢
  cases hkept : p.get? address with
  | none =>
    rw [hkept] at h
    cases h
  | some other =>
    rw [hkept] at h
    dsimp only at h ⊢
    split at h
    · cases h
      rename_i hlive
      rw [if_pos hlive]
      exact hlive
    · cases h

/-- Nothing is kept for an address once no live connection has been found for it. -/
theorem get?_of_lookup {p : Pool} {address : String} (h : (p.lookup address).1 = none) :
  (p.lookup address).2.get? address = none
  := by
  rw [lookup] at h ⊢
  cases hkept : p.get? address with
  | none => exact hkept
  | some other =>
    rw [hkept] at h
    dsimp only at h ⊢
    split at h
    · cases h
    · rename_i hdead
      rw [if_neg hdead]
      simp [get?, without]

theorem establish_lookup (p : Pool) (address : String) :
  (p.lookup address).2.establish.1 = p.establish.1
  ∧ (p.lookup address).2.establish.2.closed = p.establish.2.closed
  := by
  rw [lookup]
  split
  · exact ⟨rfl, rfl⟩
  · split
    · exact ⟨rfl, rfl⟩
    · exact ⟨rfl, rfl⟩

/-- Where nothing is kept, the connection that is opened is the one that is kept. -/
theorem adopt_of_get?_eq_none {p : Pool} {address : String} (h : p.get? address = none)
    (connection : Nat) :
  p.adopt address connection
    = (connection, { p with kept := (address, connection) :: p.kept })
  := by
  rw [adopt, h]

end Pool

namespace Delivery

theorem run_dial (d : Delivery ν) (w : World ν) {address : String} {target : Address}
    (h : dialTarget address = .ok target) :
  (d.meaning (.inr (.dial address))).run World.answer w
    = (.done (.ok d.pool.establish.1, { d with pool := d.pool.establish.2 }), w)
  := by
  rw [meaning, h]
  rfl

section Connecting

variable {d : Delivery ν} {address : String}

theorem run_lookup (d : Delivery ν) (w : World ν) (address : String) :
  (d.meaning (.inr (.lookup address))).run World.answer w
    = (.done ((d.pool.lookup address).1, { d with pool := (d.pool.lookup address).2 }), w)
  :=
  rfl

theorem run_connection_kept
    {c : Nat} (h : (d.pool.lookup address).1 = some c) (w : World ν) :
  d.run w (connection address) = (.done (.ok c, { d with pool := (d.pool.lookup address).2 }), w)
  := by
  have hlookup := d.run_lookup w address
  rw [h] at hlookup
  exact run_ask hlookup _

/-- A new connection is kept, and it is alive unless the client has been closed. -/
theorem run_connection_dialed
    {target : Address} (h : (d.pool.lookup address).1 = none)
    (htarget : dialTarget address = .ok target) (w : World ν) :
  ∃ c pool, d.run w (connection address) = (.done (.ok c, { d with pool }), w)
    ∧ pool.isLive c = d.pool.establish.2.isLive d.pool.establish.1
  := by
  have hlookup := d.run_lookup w address
  obtain ⟨hnumber, hclosed⟩ := Pool.establish_lookup d.pool address
  have hkeep := Pool.get?_of_lookup h
  rw [h] at hlookup
  generalize (d.pool.lookup address).2 = pool at hlookup hnumber hclosed hkeep
  have hstill : pool.establish.2.get? address = none := hkeep
  have hadopt : (meaning { d with pool := pool.establish.2 }
        (.inr (.adopt address pool.establish.1))).run World.answer w
      = (.done (pool.establish.1, { d with
          pool := { pool.establish.2 with
            kept := (address, pool.establish.1) :: pool.establish.2.kept } }), w) := by
    rw [meaning, Pool.adopt_of_get?_eq_none hstill]
    rfl
  refine ⟨pool.establish.1, { pool.establish.2 with
    kept := (address, pool.establish.1) :: pool.establish.2.kept }, ?_, ?_⟩
  · exact (run_ask hlookup _).trans
      ((run_ask (run_dial { d with pool } w htarget) _).trans (run_ask hadopt _))
  · rw [Pool.isLive, Pool.isLive, hnumber, hclosed]

theorem run_connection_undialed
    {e : ClientError} (h : (d.pool.lookup address).1 = none)
    (htarget : dialTarget address = .error e) (w : World ν) :
  d.run w (connection address)
    = (.done (.error e, { d with pool := (d.pool.lookup address).2 }), w)
  := by
  have hlookup := d.run_lookup w address
  rw [h] at hlookup
  have hdial : (meaning { d with pool := (d.pool.lookup address).2 }
        (.inr (.dial address))).run World.answer w
      = (.done (.error e, { d with pool := (d.pool.lookup address).2 }), w) := by
    rw [meaning, htarget]
    rfl
  exact (run_ask hlookup _).trans (run_ask hdial _)

/-- Where a connection is up, the call gets one that is alive. -/
theorem run_connection (h : d.Reaches address) (w : World ν) :
  ∃ c pool, d.run w (connection address) = (.done (.ok c, { d with pool }), w)
    ∧ pool.isLive c = true
  := by
  cases hkept : (d.pool.lookup address).1 with
  | some c =>
    exact ⟨c, (d.pool.lookup address).2, run_connection_kept hkept w, Pool.isLive_of_lookup hkept⟩
  | none =>
    obtain hsome | ⟨⟨target, htarget⟩, hlive⟩ := h
    · rw [hkept] at hsome
      cases hsome
    · obtain ⟨c, pool, hrun, hpool⟩ := run_connection_dialed hkept htarget w
      exact ⟨c, pool, hrun, hpool.trans hlive⟩

/-- Where no connection is up, the call gets none or one that is dead. -/
theorem run_connection_unreached (h : ¬ d.Reaches address) (w : World ν) :
  ∃ (result : Except ClientError Nat) (pool : Pool),
    d.run w (connection address) = (.done (result, { d with pool }), w)
    ∧ ∀ c, result = .ok c → pool.isLive c = false
  := by
  cases hkept : (d.pool.lookup address).1 with
  | some c =>
    apply absurd _ h
    left
    rw [hkept]
    rfl
  | none =>
    cases htarget : dialTarget address with
    | error e =>
      refine ⟨.error e, (d.pool.lookup address).2, run_connection_undialed hkept htarget w, ?_⟩
      intro c hc
      cases hc
    | ok target =>
      obtain ⟨c, pool, hrun, hpool⟩ := run_connection_dialed hkept htarget w
      refine ⟨.ok c, pool, hrun, ?_⟩
      rintro _ ⟨⟩
      rw [hpool, ← Bool.not_eq_true]
      intro hlive
      exact h (.inr ⟨⟨target, htarget⟩, hlive⟩)

end Connecting

theorem run_openStream (d : Delivery ν) (w : World ν) {c : Nat} (h : d.pool.isLive c = true) :
  (d.meaning (.inr (.openStream c))).run World.answer w
    = (.done (.ok d.streams.length,
      { d with streams := d.streams ++ [.fresh d.streams.length d.token] }), w)
  := by
  rw [meaning, if_pos h]
  rfl

/-- A stream from which the response can still be collected: the request has been sent on it
and nothing has been read. -/
structure Awaits (d : Delivery ν) (stream : Nat) (s : WireStream) (envelope : Envelope) : Prop where
  stream : d.streams[stream]? = some s
  sent : s.sent = Envelope.encode envelope
  signals : s.signals = [.finish]
  unread : s.IsUnread

/-- Where a connection is up, the request is sent on a stream of its own. -/
theorem run_physical
    {d : Delivery ν} {request : Request} (h : d.Reaches request.address) (w : World ν)
    (chunk : Nat) (ctx : Context) :
  ∃ (d' : Delivery ν) (stream : Nat) (s : WireStream), d'.handler = d.handler ∧ d'.cut = d.cut
    ∧ d'.Awaits stream s request.envelope
    ∧ d.run w (physical chunk ctx request)
      = d'.run w ((ask (.collect stream chunk)).bind fun read => .done (arrived read))
  := by
  obtain ⟨c, pool, hconnection, hlive⟩ := run_connection h w
  let s := WireStream.fresh d.streams.length d.token
  let s' := { s with
    sent := Envelope.encode request.envelope, side := .closed, signals := [.finish] }
  have hopen := run_openStream { d with pool } w hlive
  have hstream : (d.streams ++ [s])[d.streams.length]? = some s := by simp
  have hset : (d.streams ++ [s]).set d.streams.length s' = d.streams ++ [s'] := by simp
  have hwrite := @run_onStream ν _ { d with pool, streams := d.streams ++ [s] } w _ s _ _ _ hstream
    (WireStream.use?_writeEnvelope ⟨rfl, rfl, rfl⟩ w.clock request.envelope)
  refine ⟨{ d with pool, streams := d.streams ++ [s'] }, d.streams.length, s', rfl, rfl, ?_, ?_⟩
  · exact ⟨by simp, rfl, rfl, rfl, rfl, rfl, rfl⟩
  · rw [physical, run_bind hconnection]
    apply (run_ask hopen _).trans
    dsimp only
    rw [Client.exchange, run_bind hwrite, ← hset]
    rfl

/-- Where no connection is up, nothing is sent. -/
theorem run_physical_unreached
    {d : Delivery ν} {request : Request} (h : ¬ d.Reaches request.address) (w : World ν)
    (chunk : Nat) (ctx : Context) :
  ∃ e d', d.run w (physical chunk ctx request) = (.done (.error e, d'), w)
  := by
  obtain ⟨result, pool, hconnection, hdead⟩ := run_connection_unreached h w
  rw [physical, run_bind hconnection]
  cases result with
  | error e => exact ⟨e, { d with pool }, rfl⟩
  | ok c =>
    have hopen : (meaning { d with pool } (.inr (.openStream c))).run World.answer w
        = (.done (.error (.connection .closedLocally), { d with pool }), w) := by
      rw [meaning, if_neg (by simp [hdead c rfl])]
      rfl
    exact ⟨_, _, run_ask hopen _⟩

/-- What the client can collect once the server has served the stream is collected. -/
theorem run_collect
    {d : Delivery ν} {stream : Nat} {s t t' : WireStream} {w w' : World ν} {chunk : Nat}
    {read : Except IoError Bytes} (hstream : d.streams[stream]? = some s)
    (hexchange : (d.exchange s).run World.answer w = (.done t, w'))
    (hcollect : t.collect? w'.clock chunk = some (read, t')) :
  (d.meaning (.inr (.collect stream chunk))).run World.answer w
    = (.done (read, { d with streams := d.streams.set stream t' }), w')
  := by
  have hnow : ∀ next : Nat → Program (Ambient ν) (Except IoError Bytes × Delivery ν),
      (Program.step (S := Ambient ν) .now next).run World.answer w'
        = (next w'.clock).run World.answer w' := fun _ => rfl
  rw [meaning, hstream]
  dsimp only
  rw [Program.run_bind, hexchange]
  apply (hnow _).trans
  rw [hcollect]
  rfl

theorem run_collect_waiting
    {d : Delivery ν} {stream : Nat} {s : WireStream} {w w' : World ν} {chunk : Nat}
    (hstream : d.streams[stream]? = some s)
    (hexchange : (d.exchange s).run World.answer w = (.waiting, w')) :
  (d.meaning (.inr (.collect stream chunk))).run World.answer w = (.waiting, w')
  := by
  rw [meaning, hstream]
  dsimp only
  rw [Program.run_bind, hexchange]

end Delivery

end StreamCall.Client
