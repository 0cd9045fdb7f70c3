import StreamCall.Context

/-!
# Families of contexts

A family is a list of contexts that were derived from one another, together with their
tokens.  A `Step` derives one more context from a member, cancels a member or drops one;
what does not name a member starts from a fresh context.
-/

namespace StreamCall.Context

/-- What is done with a member of a family. -/
inductive Step where
  /-- A fresh context. -/
  | background
  /-- A fresh context under the token of a member. -/
  | sharing (member : Nat)
  | clone (member : Nat)
  | child (member : Nat)
  | withRequest (member : Nat) (request : Request)
  | withRequestId (member : Nat) (id : RequestId)
  | withBodyLimit (member : Nat) (limit : Nat)
  | cancel (member : Nat)
  | drop (member : Nat)

/-- Contexts and their tokens. -/
structure Family where
  tokens : Tokens
  members : List Context

namespace Family

/-- No contexts. -/
def empty : Family := ⟨.empty, []⟩

/-- A member, or a fresh context if there is none of that number. -/
def get (f : Family) (member : Nat) : Context × Tokens :=
  match f.members[member]? with
  | some c => (c, f.tokens)
  | none =>
    let (token, tokens) := f.tokens.root
    (.ofToken token, tokens)

/-- Adds a context made from a member. -/
def derive (f : Family) (member : Nat) (make : Context → Context) : Family :=
  let (c, tokens) := f.get member
  ⟨tokens, f.members ++ [make c]⟩

/-- Does a step. -/
def apply (f : Family) : Step → Family
  | .background =>
    let (token, tokens) := f.tokens.root
    ⟨tokens, f.members ++ [.ofToken token]⟩
  | .sharing member => f.derive member fun c => .ofToken c.token
  | .clone member => f.derive member id
  | .child member =>
    let (c, tokens) := f.get member
    let (token, tokens) := tokens.child c.token
    ⟨tokens, f.members ++ [c.withToken token]⟩
  | .withRequest member request => f.derive member (·.withRequest request)
  | .withRequestId member id => f.derive member (·.withRequestId id)
  | .withBodyLimit member limit => f.derive member (·.withBodyLimit limit)
  | .cancel member =>
    let (c, tokens) := f.get member
    { f with tokens := tokens.cancel c.token }
  | .drop member => { f with members := f.members.eraseIdx member }

/-- Whether a context has been cancelled. -/
def isCancelled (f : Family) (c : Context) : Bool :=
  f.tokens.isCancelled c.token

/-- The families after each step of a list. -/
def history (f : Family) : List Step → List Family
  | [] => []
  | s :: rest => f.apply s :: (f.apply s).history rest

end Family

end StreamCall.Context
