import StreamCall.Client.Plan
import StreamCall.Client.Quiet

/-!
# Sample round trips

Round trips and middlewares to try a client with.  A terminal does some acts and answers
itself; it notes the request that reaches it.  `makeCall` sends one request through a list of
them on a quiet network.
-/

namespace StreamCall.Rehearsal

/-- A note of a terminal: the request that reaches it, and what its context holds. -/
structure Seen where
  request : Request
  requestId : Option RequestId
  cancelled : Bool

/-- What a terminal does. -/
inductive Act where
  | sleep (span : Duration)
  | yield
  | hang
  /-- Cancels the context it was given. -/
  | cancelChild
  /-- Cancels the caller's context. -/
  | cancelParent
  | fail (error : ClientError)
  /-- Answers with the body and the headers of the request. -/
  | echo

open Client (RoundTrip Calling)

/-- The token above another. -/
def above (t : Token) : Token := ⟨t.path.tail⟩

/-- Does the acts of a terminal; the response is what it answers in the end. -/
def doActs (ctx : Context) (request : Request) (response : Response) :
    List Act → Program (Calling Seen) (Except ClientError Response)
  | [] => .done (.ok response)
  | .sleep span :: rest =>
    .step (.inr (.sleep span)) fun (_ : Unit) => doActs ctx request response rest
  | .yield :: rest => .step (.inr .yield) fun (_ : Unit) => doActs ctx request response rest
  | .hang :: _ => .step (.inl .hang) fun (never : Empty) => never.elim
  | .cancelChild :: rest =>
    .step (.inl (.cancel ctx.token)) fun (_ : Unit) => doActs ctx request response rest
  | .cancelParent :: rest =>
    .step (.inl (.cancel (above ctx.token))) fun (_ : Unit) =>
      doActs ctx request response rest
  | .fail e :: _ => .done (.error e)
  | .echo :: _ => .done (.ok ⟨request.body, request.headers⟩)

/-- A round trip that ends here: it notes the request and does some acts. -/
def terminal (acts : List Act) (response : Response) : RoundTrip Seen := fun ctx request =>
  .step (.inl (.isCancelled ctx.token)) fun (cancelled : Bool) =>
    .step (.inl (.note ⟨request, ctx.requestId, cancelled⟩)) fun (_ : Unit) =>
      doActs ctx request response acts

/-- The header in which tags are collected. -/
def tagHeader : String := "order"

/-- Appends a tag to a header. -/
def addTag (label : String) (h : Headers) : Headers :=
  h.insert tagHeader ((h.get? tagHeader).getD "" ++ label)

/-- A part of a sample client. -/
inductive Part where
  | requestId
  /-- Appends a tag to the request and to the response. -/
  | tag (label : String)
  | terminal (acts : List Act) (response : Response)

/-- The middleware of a part. -/
def Part.middleware : Part → Client.Middleware Seen
  | .requestId => Client.injectRequestId
  | .tag label => fun next ctx request =>
    (next ctx { request with headers := addTag label request.headers }).bind fun
      | .error e => .done (.error e)
      | .ok response => .done (.ok { response with headers := addTag label response.headers })
  | .terminal acts response => fun _ => Rehearsal.terminal acts response

/-- A call of a sample client: the request, and what the caller's context holds. -/
structure Call where
  request : Request
  context : Context
  cancelled : Bool

/-- What came of a call. -/
structure CallReport where
  finish : Client.Finish (World Seen)
  /-- Whether the caller is cancelled in the end. -/
  cancelled : Bool

/-- Sends a request through parts of a sample client. -/
def makeCall (source : Nat → UInt8) (parts : List Part) (call : Call) : CallReport :=
  let (caller, tokens) := Tokens.empty.root
  let tokens := if call.cancelled then tokens.cancel caller else tokens
  let (child, tokens) := tokens.child caller
  let trip := (Client.Plan.blank.choose (.middlewares (parts.map Part.middleware))).roundTrip
  let finish := Client.send (Client.Quiet.setting default caller) none 0
    { World.fresh source with tokens } trip (call.context.withToken caller) child call.request
  { finish, cancelled := finish.state.tokens.isCancelled caller }

end StreamCall.Rehearsal
