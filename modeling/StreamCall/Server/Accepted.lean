import StreamCall.Server.Handler
import StreamCall.Stream.Wire

/-!
# Accepted streams

What a server does with a stream it has accepted: the handler that is installed at that time
serves it, and then the side that is written is closed.  A stream for which there is no
handler is only closed.  In the end the server lets go of the stream; a side that is open
even then, because of a panic or a deadline, is reset.
-/

namespace StreamCall

variable {ν : Type}

/-- Serves an accepted stream with the handler that is installed. -/
def serveAccepted (handler : Option (Handler ν)) : Serving ν Unit :=
  let close : Serving ν Unit :=
    (Serving.onStream (Stream.ask .shutdown)).bind fun (_ : Except IoError Unit) => .done ()
  match handler with
  | none => close
  | some handler =>
    (Serving.onStream (Stream.ask .token)).bind fun (token : Token) =>
      (handler (Context.ofToken token)).bind fun _ => close

namespace WireStream

/-- What an operation of a program that serves a stream of a connection means. -/
def meaning (s : WireStream) :
    (op : (Service ν).Op) → Program (Ambient ν) ((Service ν).Answer op × WireStream)
  | .inl op => .step op fun answer => .done (answer, s)
  | .inr op =>
    .step .now fun (now : Nat) =>
      match s.answer? now op with
      | some result => .done result
      | none => .step .hang fun (never : Empty) => never.elim

/-- Serves an accepted stream to its end; then its token is cancelled. -/
def serve (s : WireStream) (handler : Option (Handler ν)) : Program (Ambient ν) WireStream :=
  (Program.settle meaning s (serveAccepted handler)).bind fun (_, s) =>
    .step (.cancel s.token) fun (_ : Unit) => .done s.drop

end WireStream

end StreamCall
