/-!
# Cancellation tokens

Tokens form trees.  A token is the path from it up to its root, so its ancestors are the
suffixes of the path.  `Tokens` hands out fresh tokens and records which have been
cancelled; a token counts as cancelled as soon as it or an ancestor has been.
-/

namespace StreamCall

/-- A token: its own number and those of its ancestors, the root's last. -/
structure Token where
  path : List Nat
deriving DecidableEq, Inhabited, Repr

/-- Which numbers have been given out, and which tokens have been cancelled. -/
structure Tokens where
  next : Nat
  cancelled : List Token
deriving DecidableEq, Inhabited, Repr

namespace Tokens

/-- Nothing given out and nothing cancelled. -/
def empty : Tokens := ⟨0, []⟩

/-- A fresh token without ancestors. -/
def root (s : Tokens) : Token × Tokens :=
  (⟨[s.next]⟩, { s with next := s.next + 1 })

/-- A fresh token below another. -/
def child (s : Tokens) (t : Token) : Token × Tokens :=
  (⟨s.next :: t.path⟩, { s with next := s.next + 1 })

/-- Cancels a token, and with it all below it. -/
def cancel (s : Tokens) (t : Token) : Tokens :=
  { s with cancelled := t :: s.cancelled }

/-- Whether a token or an ancestor of it has been cancelled. -/
def isCancelled (s : Tokens) (t : Token) : Bool :=
  s.cancelled.any fun c => c.path.isSuffixOf t.path

end Tokens

end StreamCall
