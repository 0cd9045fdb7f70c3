import StreamCall.Client.Plan
import StreamCall.Proofs.Server.Locality

/-!
# Round trips that keep to themselves

A round trip is local if it uses no other tokens than its own, and gets one connection for one
stream, whichever connection that is (`RoundTrip.IsLocal`).  The round trip over a connection is
local (`physical_isLocal`), and so it is behind middlewares that keep it so, as those that give
requests an id do (`injectRequestId_keepsLocal`).
-/

namespace StreamCall.Client

variable {ν α β : Type}

/-- What a round trip may use that has its stream or will get none. -/
def settledAt (t : Token) : Program.Terms (Calling ν) where
  allows
    | .inl op => op.IsBelow t
    | .inr (.onStream _ _) => True
    | .inr (.collect _ _) => True
    | .inr (.sleep _) => True
    | .inr .yield => True
    | .inr _ => False
  tells
    | .inl op, answer => AmbientOp.Tells op answer
    | .inr _, _ => True

/-- Whether a program is what is left of a round trip that has its stream or will get none. -/
def IsSettled (t : Token) (p : Program (Calling ν) α) : Prop :=
  p.Obeys (settledAt t) fun _ => True

/-- Whether whatever a program goes on with is settled. -/
def Settles (t : Token) (f : β → Program (Calling ν) α) : Prop :=
  ∀ b, IsSettled t (f b)

/-! ### Getting a connection -/

/-- Asks for a stream on a connection. -/
def asking (k : Except ClientError Nat → Program (Calling ν) α) (connection : Nat) :
    Program (Calling ν) α :=
  .step (.inr (.openStream connection)) k

/-- Adopts a connection, and asks for a stream. -/
def holding (address : String) (k : Except ClientError Nat → Program (Calling ν) α)
    (connection : Nat) : Program (Calling ν) α :=
  .step (.inr (.adopt address connection)) (asking k)

/-- Opens a connection and asks for a stream, or fails. -/
def dialing (address : String) (f : ClientError → Program (Calling ν) α)
    (k : Except ClientError Nat → Program (Calling ν) α) : Program (Calling ν) α :=
  .step (.inr (.dial address)) fun (dialed : Except ClientError Nat) =>
    match dialed with
    | .error e => f e
    | .ok connection => holding address k connection

/-- Looks for a connection that is kept. -/
def looking (address : String) (f : ClientError → Program (Calling ν) α)
    (k : Except ClientError Nat → Program (Calling ν) α) : Program (Calling ν) α :=
  .step (.inr (.lookup address)) fun (kept : Option Nat) =>
    match kept with
    | some connection => asking k connection
    | none => dialing address f k

section

variable {address : String} {f f' : ClientError → Program (Calling ν) α}
  {k k' : Except ClientError Nat → Program (Calling ν) α}

theorem holding_inj {c c' : Nat} (h : holding address k c = holding address k' c') :
  c = c' ∧ k = k'
  := by
  obtain ⟨hop, hnext⟩ := Program.step.inj h
  cases hop
  have hasking : asking k 0 = asking k' 0 := congrFun (eq_of_heq hnext) 0
  cases hasking
  exact ⟨rfl, rfl⟩

theorem dialing_inj (h : dialing address f k = dialing address f' k') :
  f = f' ∧ k = k'
  := by
  have hnext := eq_of_heq (Program.step.inj h).2
  constructor
  · funext e
    exact congrFun hnext (.error e)
  · have hholding : holding address k 0 = holding address k' 0 := congrFun hnext (.ok 0)
    exact (holding_inj hholding).2

theorem looking_inj (h : looking address f k = looking address f' k') :
  f = f' ∧ k = k'
  := by
  have hnext := eq_of_heq (Program.step.inj h).2
  have hdialing : dialing address f k = dialing address f' k' := congrFun hnext none
  exact dialing_inj hdialing

end

/-- Whether a program is a round trip that has not looked for a connection. -/
inductive Departs (t : Token) (address : String) : Program (Calling ν) α → Prop where
  | settled {p : Program (Calling ν) α} (h : IsSettled t p) : Departs t address p
  | preparing {op : AmbientOp ν} {next : op.Answer → Program (Calling ν) α}
    (allowed : op.IsBelow t)
    (departs : ∀ answer, op.Tells answer → Departs t address (next answer)) :
    Departs t address (.step (.inl op) next)
  | looking {f : ClientError → Program (Calling ν) α}
    {k : Except ClientError Nat → Program (Calling ν) α} (hf : Settles t f) (hk : Settles t k) :
    Departs t address (looking address f k)

/-- A round trip that uses no other tokens than its own, and one connection for one stream. -/
def RoundTrip.IsLocal (trip : RoundTrip ν) : Prop :=
  ∀ ctx request, Departs ctx.token request.address (trip ctx request)

/-- A middleware that makes local round trips from local ones. -/
def Middleware.KeepsLocal (middleware : Middleware ν) : Prop :=
  ∀ trip : RoundTrip ν, trip.IsLocal → RoundTrip.IsLocal (middleware trip)

/-! ### Composition -/

section

variable {t : Token} {address : String}

theorem IsSettled.bind
    {p : Program (Calling ν) α} {g : α → Program (Calling ν) β} (hp : IsSettled t p)
    (hg : Settles t g) :
  IsSettled t (p.bind g)
  :=
  Program.Obeys.bind hp fun a _ => hg a

/-- The surroundings may be used before. -/
theorem Departs.after
    {p : Program (Ambient ν) β} {g : β → Program (Calling ν) α} {wanted : β → Prop}
    (hp : p.Obeys (Ambient.below t) wanted) (hg : ∀ b, wanted b → Departs t address (g b)) :
  Departs t address ((onSurroundings p).bind g)
  := by
  induction p with
  | done b => exact hg b hp
  | panic q => exact .settled trivial
  | step op next ih => exact .preparing hp.1 fun answer htold => ih answer (hp.2 answer htold)

end

/-! ### Local round trips -/

theorem onStream_isSettled (t : Token) (stream : Nat) (p : Stream.Use α) :
  IsSettled t (onStream stream p : Program (Calling ν) α)
  := by
  have hthrough : ∀ p : Stream.Use α, IsSettled (ν := ν) t
      (Program.through (fun () op => (ask (.onStream stream op)).bind fun a => .done (a, ())) () p)
      := by
    intro p
    induction p with
    | done a => trivial
    | panic q => trivial
    | step op next ih => exact ⟨trivial, fun answer _ => ih answer⟩
  exact (hthrough p).bind fun _ => trivial

theorem exchange_isSettled (t : Token) (chunk stream : Nat) (request : Request) :
  IsSettled t (exchange chunk stream request : Program (Calling ν) (Except ClientError Response))
  := by
  apply (onStream_isSettled t stream _).bind
  rintro (e | -)
  · exact ⟨trivial, fun _ _ => trivial⟩
  · exact ⟨trivial, fun _ _ => trivial⟩

/-- Exchanges a request for a response on a stream that was opened for it. -/
def exchangeOn (chunk : Nat) (request : Request) :
    Except ClientError Nat → Program (Calling ν) (Except ClientError Response)
  | .error e => .done (.error e)
  | .ok stream => exchange chunk stream request

theorem physical_eq (chunk : Nat) (ctx : Context) (request : Request) :
  physical (ν := ν) chunk ctx request
    = looking request.address (fun e => .done (.error e)) (exchangeOn chunk request)
  := by
  apply Program.step_congr (S := Calling ν) (.inr (.lookup request.address))
  rintro (- | connection)
  · apply Program.step_congr (S := Calling ν) (.inr (.dial request.address))
    rintro (e | connection) <;> rfl
  · rfl

/-- The round trip over a connection is local. -/
theorem physical_isLocal (chunk : Nat) :
  RoundTrip.IsLocal (physical (ν := ν) chunk)
  := by
  intro ctx request
  rw [physical_eq]
  apply Departs.looking
  · exact fun e => trivial
  · rintro (e | stream)
    · trivial
    · exact exchange_isSettled ctx.token chunk stream request

/-- A middleware that gives requests an id keeps round trips local. -/
theorem injectRequestId_keepsLocal :
  (injectRequestId (ν := ν)).KeepsLocal
  := by
  intro trip htrip ctx request
  rw [injectRequestId]
  split
  · exact htrip ctx request
  · have hid : (idToInject ctx : Program (Ambient ν) RequestId).Obeys (Ambient.below ctx.token)
        fun _ => True := by
      rw [idToInject]
      split
      · trivial
      · exact ⟨trivial, fun _ _ => trivial⟩
    exact .after hid fun id _ =>
      htrip ctx { request with headers := request.headers.insert RequestId.header id.text }

/-- The round trip of a client whose middlewares keep it local is local. -/
theorem Plan.roundTrip_isLocal
    {plan : Plan ν} (h : ∀ m ∈ plan.middlewares, m.KeepsLocal) :
  plan.roundTrip.IsLocal
  := by
  have hchain : ∀ ms : List (Middleware ν), (∀ m ∈ ms, m.KeepsLocal) →
      RoundTrip.IsLocal (chain ms (physical plan.settings.readBuffer)) := by
    intro ms hms
    induction ms with
    | nil => exact physical_isLocal _
    | cons m ms ih =>
      exact hms m List.mem_cons_self _ (ih fun m hm => hms m (List.mem_cons_of_mem _ hm))
  exact hchain plan.middlewares h

end StreamCall.Client
