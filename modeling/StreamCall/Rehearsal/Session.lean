import StreamCall.Client.Plan
import StreamCall.Client.Quiet
import StreamCall.Rehearsal.Sample
import StreamCall.Server.Lifecycle
import StreamCall.Server.Plan

/-!
# Sessions

A session has servers and clients on a quiet network and a clock.  Its steps start and stop
servers and make calls, and each step is given up when it takes too long; a call that was
begun in the background goes on meanwhile.  `Session.take` does one step.
-/

namespace StreamCall.Rehearsal

/-- How a server is set up. -/
structure Setup where
  plan : Server.Plan Note
  /-- The address it listens at. -/
  address : String
  handler : Option (Handler Note)

/-- A server in a session. -/
structure Site where
  setup : Setup
  server : Server (Handler Note)
  /-- The address it was last bound to. -/
  address : Option String
  /-- Whether the end of its run is still to be waited for. -/
  isAwaited : Bool

/-- A client in a session. -/
structure Party where
  plan : Client.Plan Note
  /-- When it was closed. -/
  closedAt : Option Nat

/-- The network as a client meets it. -/
def Party.network (p : Party) : Client.Quiet := ⟨p.plan.config, p.closedAt⟩

/-- A call that a step makes. -/
structure Errand where
  party : String
  /-- The name of a server, or an address. -/
  target : String
  /-- The request, but for its address. -/
  request : Request
  requestId : Option RequestId
  /-- Whether the caller has been cancelled before. -/
  isCancelled : Bool
  /-- After how many milliseconds the caller is cancelled. -/
  cancelAfter : Option Nat

/-- A call that has been begun. -/
structure Underway where
  party : String
  context : Context
  /-- The token of the round trip. -/
  child : Token
  request : Request
  start : Nat
  cancelAt : Option Nat

/-- A step of a session. -/
inductive Step where
  | build (name : String) (setup : Setup)
  | serve (name : String) (setup : Setup)
  /-- Makes a server anew, at the address it had. -/
  | restart (name : String) (handler : Option (Handler Note))
  | upgrade (name : String) (handler : Handler Note)
  | look (name : String)
  /-- Cancels the run of a server and waits for its end. -/
  | stop (name : String)
  /-- Shuts a server down and waits for that for some milliseconds. -/
  | shut (name : String) (isCancelled : Bool) (wait : Nat)
  /-- Waits for the end of the run of a server. -/
  | awaitEnd (name : String)
  | join (name : String) (party : Party)
  | close (party : String)
  | call (errand : Errand)
  | begin (name : String) (errand : Errand)
  | await (name : String)
  | parallel (errands : List Errand)
  /-- Waits until a request has come to a gate. -/
  | awaitGate
  | openGate
  | connections (party : String)
  /-- Waits until a client has a number of connections. -/
  | awaitConnections (party : String) (number : Nat)
  | sleep (ms : Nat)
  | collectNotes

/-- What came of a step. -/
inductive Turnout where
  | ok
  | built
  | listening
  | refused (error : ServerError)
  | site (hasHandler isBound : Bool)
  | served
  | notListening
  | returned
  | waiting
  | reply (result : Except ClientError Response)
  | replies (results : List (Except ClientError Response))
  | pool (pool : Client.Pool)
  | notes (notes : List Note)
  /-- The step took too long. -/
  | givenUp

/-- A session. -/
structure Session where
  now : Nat
  world : World Note
  sites : List (String × Site)
  parties : List (String × Party)
  calls : List (String × Underway)
  /-- How many free ports have been given out. -/
  ports : Nat

namespace Session

/-- A session in which nothing has happened. -/
def fresh (source : Nat → UInt8) : Session :=
  { now := 0, world := .fresh source, sites := [], parties := [], calls := [], ports := 0 }

/-- How long a step may take, in milliseconds. -/
def patience : Nat := 5000

/-- The first of the ports that are given out when any free port will do. -/
def firstPort : Nat := 49152

/-- The entry under a name. -/
def find? {α : Type} (name : String) (entries : List (String × α)) : Option α :=
  (entries.find? (·.1 = name)).map Prod.snd

/-- Makes or replaces the entry under a name. -/
def put {α : Type} (name : String) (a : α) (entries : List (String × α)) :
    List (String × α) :=
  entries.filter (·.1 ≠ name) ++ [(name, a)]

/-- Replaces a server. -/
def setSite (s : Session) (name : String) (site : Site) : Session :=
  { s with sites := put name site s.sites }

/-- The session some milliseconds later. -/
def after (s : Session) (ms : Nat) : Session :=
  { s with now := s.now + ms }

/-- A step is given up. -/
def giveUp (s : Session) : Turnout × Session := (.givenUp, s.after patience)

/-! ### Addresses -/

/-- The address that a name or a text means in a call. -/
def addressOf (s : Session) (target : String) : String :=
  ((find? target s.sites).bind Site.address).getD target

/-- How an address shows: that of a server by the name of the server. -/
def shownAddress (s : Session) (address : String) : String :=
  match s.sites.find? (·.2.address = some address) with
  | some (name, _) => "<" ++ name ++ ">"
  | none => address

/-- Whether a running server holds an address. -/
def isTaken (s : Session) (address : Address) : Bool :=
  s.sites.any (·.2.server.address? = some address)

/-- The error of binding an address that is held. -/
def takenError : IoError := .text .addrInUse "Address already in use (os error 98)"

/-- The address that a socket gets. -/
def bind (s : Session) (address : Address) : Except IoError Address :=
  if address.port = 0 then .ok { address with port := firstPort + s.ports }
  else if s.isTaken address then .error takenError
  else .ok address

/-! ### Servers -/

/-- The server that a setup describes. -/
def raise (setup : Setup) : Site :=
  let server : Server (Handler Note) := .idle
  let server :=
    match setup.handler with
    | some handler => server.upgrade (setup.plan.wrap handler)
    | none => server
  { setup, server, address := none, isAwaited := false }

/-- Makes a server and lets it listen. -/
def serve (s : Session) (name : String) (setup : Setup) : Turnout × Session :=
  let site := raise setup
  match site.server.listen setup.plan.config.hasTls s.bind setup.address with
  | .error e => (.refused (e.mapAddress s.shownAddress), s.setSite name site)
  | .ok server =>
    let address := server.address?.map Address.text
    let s := { s with ports := s.ports + 1 }
    (.listening, s.setSite name { site with server, address, isAwaited := true })

/-- Waits for the end of the run of a server; that it has ended is told once. -/
def awaitEnd (s : Session) (name : String) (site : Site) : Turnout × Session :=
  if !site.isAwaited then (.notListening, s.setSite name site)
  else if site.server.isBound then (s.setSite name site).giveUp
  else (.served, s.setSite name { site with isAwaited := false })

/-- Shuts a server down and waits until its run has ended. -/
def shut (s : Session) (name : String) (site : Site) (isCancelled : Bool) (wait : Nat) :
    Turnout × Session :=
  let server := site.server.shut.settle
  let s := s.setSite name { site with server }
  if server.isBound && !isCancelled then (.waiting, s.after wait) else (.returned, s)

/-! ### Calls -/

/-- Begins a call. -/
def depart (s : Session) (e : Errand) : Underway × Session :=
  let (caller, tokens) := s.world.tokens.root
  let tokens := if e.isCancelled then tokens.cancel caller else tokens
  let (child, tokens) := tokens.child caller
  ({ party := e.party
     context := { Context.ofToken caller with requestId := e.requestId }
     child
     request := { e.request with address := s.addressOf e.target }
     start := s.now
     cancelAt := e.cancelAfter.map fun ms => s.now + max ms 1 },
    { s with world := { s.world with tokens } })

/-- How a call ends. -/
def finish (s : Session) (call : Underway) : Client.Finish (World Note) :=
  match find? call.party s.parties with
  | none => .failed (.connection .closedLocally) call.start s.world
  | some party =>
    Client.send (party.network.setting call.context.token) call.cancelAt call.start s.world
      party.plan.roundTrip call.context call.child call.request

/-- The result of a call that has ended by a time, with the time of its end. -/
def resultBy (s : Session) (time : Nat) (call : Underway) :
    Option (Except ClientError Response × Nat) :=
  let f := s.finish call
  match f.outcome with
  | .done result =>
    if f.time ≤ time then some (result.mapError (·.mapAddress s.shownAddress), f.time) else none
  | _ => none

/-- Makes calls at once and waits for all of them, shorter than a step may take. -/
def makeCalls (s : Session) (errands : List Errand) :
    Option (List (Except ClientError Response)) × Session :=
  let (calls, s) := errands.foldl
    (fun (calls, s) e => let (call, s) := s.depart e; (calls ++ [call], s)) ([], s)
  match calls.mapM (s.resultBy (s.now + patience - 1)) with
  | none => (none, s.after patience)
  | some results => (some (results.map Prod.fst),
      { s with now := results.foldl (fun now r => max now r.2) s.now })

/-- Waits for a call that was begun. -/
def await (s : Session) (name : String) : Turnout × Session :=
  match (find? name s.calls).bind (s.resultBy (s.now + patience)) with
  | none => s.giveUp
  | some (result, time) => (.reply result, { s with now := max s.now time })

/-- Closes a client for good. -/
def close (s : Session) (name : String) : Session :=
  match find? name s.parties with
  | none => s
  | some party =>
    let closedAt := party.closedAt.or (some s.now)
    { s with parties := put name { party with closedAt } s.parties }

/-! ### Steps -/

/-- A step that is about a server. -/
def atSite (s : Session) (name : String) (f : Site → Turnout × Session) : Turnout × Session :=
  match find? name s.sites with
  | none => (.notListening, s)
  | some site => f site

/-- Does a step. On a quiet network no connection is opened and no request arrives. -/
def take (s : Session) : Step → Turnout × Session
  | .build name setup => (.built, s.setSite name (raise setup))
  | .serve name setup => s.serve name setup
  | .restart name handler =>
    s.atSite name fun site =>
      let address := site.address.getD site.setup.address
      s.serve name { site.setup with address, handler := handler.or site.setup.handler }
  | .upgrade name handler =>
    s.atSite name fun site =>
      let server := site.server.upgrade (site.setup.plan.wrap handler)
      (.ok, s.setSite name { site with server })
  | .look name =>
    s.atSite name fun site => (.site site.server.hasHandler site.server.isBound, s)
  | .stop name =>
    s.atSite name fun site =>
      s.awaitEnd name { site with server := site.server.cancel.settle }
  | .shut name isCancelled wait =>
    s.atSite name fun site => s.shut name site isCancelled wait
  | .awaitEnd name => s.atSite name fun site => s.awaitEnd name site
  | .join name party => (.ok, { s with parties := put name party s.parties })
  | .close name => (.ok, s.close name)
  | .call errand =>
    match s.makeCalls [errand] with
    | (some [result], s) => (.reply result, s)
    | (_, s) => (.givenUp, s)
  | .begin name errand =>
    let (call, s) := s.depart errand
    (.ok, { s with calls := put name call s.calls })
  | .await name => s.await name
  | .parallel errands =>
    match s.makeCalls errands with
    | (some results, s) => (.replies results, s)
    | (none, s) => (.givenUp, s)
  | .awaitGate => s.giveUp
  | .openGate => (.ok, s)
  | .connections _ => (.pool .empty, s)
  | .awaitConnections _ number =>
    if number = Client.Pool.empty.live then (.pool .empty, s) else s.giveUp
  | .sleep ms => if ms ≤ patience then (.ok, s.after ms) else s.giveUp
  | .collectNotes => (.notes s.world.notes, { s with world := { s.world with notes := [] } })

/-- Does steps one after the other. -/
def takeAll (s : Session) : List Step → List Turnout
  | [] => []
  | step :: rest =>
    let (turnout, s) := s.take step
    turnout :: s.takeAll rest

end Session

end StreamCall.Rehearsal
