import StreamCall.Ambient
import StreamCall.Context
import StreamCall.Error.Handler
import StreamCall.Stream.Layer

/-!
# Handlers

A handler serves one stream: given the context of the call, it is a program that uses the
stream and the surroundings and ends with an error or without.  A middleware makes a handler
from a handler, and `chain` puts a list of them around one, the first outermost.  `unary`
makes a handler of a function from requests to responses.
-/

namespace StreamCall

/-- What a handler can use: the surroundings and the stream it serves. -/
abbrev Service (ν : Type) : Signature := (Ambient ν).sum Streaming

/-- A program that serves a stream. -/
abbrev Serving (ν α : Type) := Program (Service ν) α

/-- Serves a stream. -/
abbrev Handler (ν : Type) := Context → Serving ν (Except HandlerError Unit)

/-- Makes a handler from a handler. -/
abbrev Middleware (ν : Type) := Handler ν → Handler ν

/-- Answers a request. -/
abbrev Unary (ν : Type) :=
  Context → Request → Program (Ambient ν) (Except HandlerError Response)

variable {ν α : Type}

namespace Serving

/-- A program on the stream alone. -/
def onStream (p : Stream.Use α) : Serving ν α := p.inr

/-- A program on the surroundings alone. -/
def onSurroundings (p : Program (Ambient ν) α) : Serving ν α := p.inl

/-- The number of the stream. -/
def streamId : Serving ν Nat := onStream (Stream.ask .id)

/-- Logs an event. -/
def log (event : Event) : Serving ν Unit :=
  .step (.inl (.log event)) fun (_ : Unit) => .done ()

/-- Leaves a note. -/
def note (note : ν) : Serving ν Unit :=
  .step (.inl (.note note)) fun (_ : Unit) => .done ()

/-- What an operation does when a layer lies on the stream. -/
def underLayer (layer : Layer) :
    (op : (Service ν).Op) → Serving ν ((Service ν).Answer op × Layer)
  | .inl op => .step (.inl op) fun answer => .done (answer, layer)
  | .inr op => onStream (layer.on op)

/-- Runs a program with a layer on the stream. -/
def withLayer (layer : Layer) (p : Serving ν α) : Serving ν (α × Layer) :=
  Program.through underLayer layer p

/-- What an operation does in the course of a request: events tell so. -/
def underSpan (id : RequestId) :
    Unit → (op : (Service ν).Op) → Serving ν ((Service ν).Answer op × Unit)
  | _, .inl (.log event) =>
    .step (.inl (.log (event.within id))) fun (_ : Unit) => .done ((), ())
  | _, op => .step op fun answer => .done (answer, ())

/-- Runs a program in the course of a request. -/
def withSpan (id : RequestId) (p : Serving ν α) : Serving ν α :=
  (Program.through (underSpan id) () p).bind fun r => .done r.1

/-- Ends with an error. -/
def fail (e : HandlerError) : Serving ν (Except HandlerError α) := .done (.error e)

end Serving

/-- Puts middlewares around a handler, the first outermost. -/
def chain (middlewares : List (Middleware ν)) (handler : Handler ν) : Handler ν :=
  middlewares.foldr (fun middleware next => middleware next) handler

/-- The error of a part that needs the decoded request. -/
def missingRequest : HandlerError := .msg "request not found in context"

/-- The handler that answers the request in the context and writes the response. -/
def unary (f : Unary ν) : Handler ν := fun ctx =>
  match ctx.request with
  | none => Serving.fail missingRequest
  | some request =>
    (Serving.onSurroundings (f ctx request)).bind fun
      | .error e => Serving.fail e
      | .ok response =>
        (Serving.onStream (Stream.writeEnvelope response.envelope)).bind fun
          | .error e => Serving.fail (.classify (.envelope e))
          | .ok _ => .done (.ok ())

end StreamCall
