import StreamCall.Rehearsal.Script
import StreamCall.Server.Middleware

/-!
# Sample handlers

Handlers and middlewares to try a chain with.  Each leaves notes of what it sees: a
`Probe` of what passes it, a sample of the requests that reach it, and a scripted handler
of what came of its actions.
-/

namespace StreamCall.Rehearsal

/-- A note of an observer. -/
inductive Note where
  /-- A call enters a probe: what the context holds. -/
  | entered (probe : String) (hasRequest hasId : Bool) (bodyLimit : Option Nat)
  /-- A call leaves a probe, with the code of its failure if it failed. -/
  | left (probe : String) (code : Option Nat)
  /-- A request reaches a sample handler. -/
  | reached (bodyLength : Nat)
  /-- A scripted handler has performed its script. -/
  | performed (records : List Record)

/-- How a sample handler answers. -/
inductive Sample where
  /-- With a text and the body behind it, and perhaps with the id of the request. -/
  | echo (front : Bytes) (withId : Bool)
  /-- With the body and the headers. -/
  | reflect
  | fixed (response : Response)
  | fail (error : HandlerError)
  | panic (payload : Payload)
  /-- As the first of these cases whose body is the request's, or else as the last sample. -/
  | byBody (cases : List (Bytes × Sample)) (otherwise : Sample)
  /-- With a description of what it was called with. -/
  | inspect
  /-- With a response, once it is let on. -/
  | gate (response : Response)
  | hang

instance : Inhabited Sample := ⟨.reflect⟩

/-- A value of a description. -/
def quotedText (s : String) : Bytes := Envelope.writeString s

/-- The text of a truth value. -/
def truth (b : Bool) : Bytes := Utf8.encode (toString b)

/-- The id of a request as a description shows it: an id that no header holds was made up on
the way, so only its kind is told. -/
def describedId (ctx : Context) (request : Request) : Bytes :=
  match ctx.requestId with
  | none => Utf8.encode "null"
  | some id =>
    let given := request.headers.entries.any fun e => 1 < (e.2.splitOn id.text).length
    if id.text.utf8ByteSize = 36 ∧ !given then quotedText "<uuid>" else quotedText id.text

/-- What a handler was called with, with simple quotes. -/
def description (ctx : Context) (request : Request) (cancelled : Bool) : Bytes :=
  let header (e : String × String) : Bytes :=
    Json.openList :: quotedText e.1 ++ Json.comma :: quotedText e.2 ++ [Json.closeList]
  let limit :=
    match ctx.bodyLimit with
    | none => Utf8.encode "null"
    | some n => quotedText (toString n)
  let members : List (String × Bytes) :=
    [("address", quotedText request.address),
     ("body_len", Utf8.encode (toString request.body.length)),
     ("body_limit", limit),
     ("cancelled", truth cancelled),
     ("has_timeout", truth request.timeout.isSome),
     ("headers", Json.openList :: [Json.comma].intercalate (request.headers.entries.map header)
       ++ [Json.closeList]),
     ("request_id", describedId ctx request)]
  let texts := members.map fun m => quotedText m.1 ++ Json.colon :: m.2
  (Json.openObject :: [Json.comma].intercalate texts ++ [Json.closeObject]).map fun b =>
    if b = Json.quote then 0x27 else b

mutual

/-- The answer of a sample handler. -/
def Sample.answer (ctx : Context) (request : Request) :
    Sample → Program (Ambient Note) (Except HandlerError Response)
  | .echo front withId =>
    let headers :=
      match ctx.requestId with
      | some id => if withId then Headers.empty.insert RequestId.header id.text else .empty
      | none => .empty
    .done (.ok ⟨front ++ request.body, headers⟩)
  | .reflect => .done (.ok ⟨request.body, request.headers⟩)
  | .fixed response => .done (.ok response)
  | .fail error => .done (.error error)
  | .panic payload => .panic payload
  | .byBody cases otherwise => answerByBody ctx request (otherwise.answer ctx request) cases
  | .inspect =>
    .step (.isCancelled ctx.token) fun (cancelled : Bool) =>
      .done (.ok ⟨description ctx request cancelled, .empty⟩)
  | .gate response => .step .pause fun (_ : Unit) => .done (.ok response)
  | .hang => .step .hang fun (never : Empty) => never.elim

/-- The answer of the first case that fits. -/
def answerByBody (ctx : Context) (request : Request)
    (otherwise : Program (Ambient Note) (Except HandlerError Response)) :
    List (Bytes × Sample) → Program (Ambient Note) (Except HandlerError Response)
  | [] => otherwise
  | (body, sample) :: rest =>
    if request.body = body then sample.answer ctx request
    else answerByBody ctx request otherwise rest

end

/-- The handler of a sample: it notes the request and answers it. -/
def Sample.handler (sample : Sample) : Handler Note :=
  unary fun ctx request =>
    .step (.note (.reached request.body.length)) fun (_ : Unit) => sample.answer ctx request

/-- How a scripted handler ends. -/
inductive Finish where
  | succeed
  | fail (error : HandlerError)
  | panic (payload : Payload)

/-- A handler that performs a script. -/
structure Scripted where
  script : List Action
  /-- Whether an action that failed makes the handler fail. -/
  failOnError : Bool
  finish : Finish

/-- The error of a script whose action of that number failed. -/
def scriptError (action : Nat) : HandlerError :=
  (HandlerError.msg "script step failed").withCode (900 + action)

/-- The handler of a script. A panic comes before everything else. -/
def Scripted.handler (s : Scripted) : Handler Note := fun _ =>
  (perform [] s.script).bind fun records =>
    (Serving.note (.performed records)).bind fun _ =>
      match s.finish with
      | .panic payload => .panic payload
      | finish =>
        match if s.failOnError then records.findIdx? (·.result.isError) else none with
        | some action => Serving.fail (scriptError action)
        | none =>
          match finish with
          | .fail error => Serving.fail error
          | _ => .done (.ok ())

/-- What a probe makes of a failure. -/
inductive OnError where
  | keep
  /-- It hides the failure. -/
  | hide
  | replace (error : HandlerError)

/-- A middleware that notes what passes it. A panic passes unseen. -/
def probe (name : String) (onError : OnError) : Middleware Note := fun next ctx =>
  let entered := Note.entered name ctx.request.isSome ctx.requestId.isSome ctx.bodyLimit
  (Serving.note entered).bind fun _ =>
    (next ctx).bind fun
      | .ok _ => (Serving.note (.left name none)).bind fun _ => .done (.ok ())
      | .error e =>
        (Serving.note (.left name (some e.wireCode))).bind fun _ =>
          match onError with
          | .keep => Serving.fail e
          | .hide => .done (.ok ())
          | .replace other => Serving.fail other

end StreamCall.Rehearsal
