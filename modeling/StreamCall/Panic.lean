/-!
# Panics

A handler that panics stops at once.  What it carries to whoever catches it is a text, or
something that shows no text.
-/

namespace StreamCall

/-- What a panic carries: a text, or something else. -/
inductive Payload where
  | text (message : String)
  | opaqueValue
deriving DecidableEq, Repr, Inhabited

/-- What a caught panic is reported as. -/
def Payload.message : Payload → String
  | .text message => message
  | .opaqueValue => "non-string panic payload"

end StreamCall
