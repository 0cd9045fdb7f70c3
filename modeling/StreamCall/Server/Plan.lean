import StreamCall.Server.Middleware
import StreamCall.Transport.Config

/-!
# Planning a server

A server is planned by choices made one after the other.  Settings are replaced by later
choices; middlewares add up, and an earlier one is further out.
-/

namespace StreamCall.Server

/-- Settings of a server. -/
structure Config where
  /-- Whether it has an identity to show to clients. -/
  hasTls : Bool
  transport : Transport.Config
deriving DecidableEq, Repr

/-- What a server is made from. -/
structure Plan (ν : Type) where
  config : Config
  middlewares : List (Middleware ν)

/-- A choice about a server. -/
inductive Choice (ν : Type) where
  | config (config : Config)
  | tls
  | transport (config : Transport.Config)
  | middleware (middleware : Middleware ν)
  | middlewares (middlewares : List (Middleware ν))
  /-- The usual chain, for bodies of at most `limit` bytes. -/
  | defaultChain (limit : Nat)

namespace Plan

variable {ν : Type}

/-- Nothing chosen: no identity and no middlewares. -/
def blank : Plan ν := ⟨⟨false, .standard⟩, []⟩

/-- Makes a choice. -/
def choose (p : Plan ν) : Choice ν → Plan ν
  | .config config => { p with config }
  | .tls => { p with config := { p.config with hasTls := true } }
  | .transport transport => { p with config := { p.config with transport } }
  | .middleware m => { p with middlewares := p.middlewares ++ [m] }
  | .middlewares ms => { p with middlewares := p.middlewares ++ ms }
  | .defaultChain limit =>
    { p with middlewares := p.middlewares ++ Middleware.defaultChain limit }

/-- The plan that some choices make. -/
def ofChoices (choices : List (Choice ν)) : Plan ν :=
  choices.foldl choose blank

/-- What is installed for a handler. -/
def wrap (p : Plan ν) (handler : Handler ν) : Handler ν :=
  chain p.middlewares handler

end Plan

end StreamCall.Server
