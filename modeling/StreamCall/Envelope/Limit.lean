/-!
# The size of an envelope

`maxSize` bounds the documents that a server reads for a bound on the bodies: room for the
base64 text of the largest body and a fixed share for everything else, capped at the
largest number of 64 bits.
-/

namespace StreamCall.Envelope

/-- How many bytes the body of a request usually may have. -/
def standardMaxBody : Nat := 64 * 1024 * 1024

/-- The room for everything but the body. -/
def overhead : Nat := 65536

/-- The largest number of 64 bits. -/
def maxWord : Nat := Nat.pow 2 64 - 1

/-- The largest document for bodies of at most `maxBody` bytes. -/
def maxSize (maxBody : Nat) : Nat :=
  min ((min ((maxBody + 2) / 3 * 4) maxWord) + overhead) maxWord

end StreamCall.Envelope
