import StreamCall.Client.Call
import StreamCall.Client.Config

/-!
# Planning a client

A client is planned by choices made one after the other.  Settings are replaced by later
choices; middlewares add up, and an earlier one is further out.
-/

namespace StreamCall.Client

/-- What a client is made from. -/
structure Plan (ν : Type) where
  config : Config
  middlewares : List (Middleware ν)

/-- A choice about a client. -/
inductive Choice (ν : Type) where
  | config (config : Config)
  | transport (config : Transport.Config)
  | dialTimeout (limit : Duration)
  | readBuffer (size : Nat)
  | middleware (middleware : Middleware ν)
  | middlewares (middlewares : List (Middleware ν))

namespace Plan

variable {ν : Type}

/-- Nothing chosen: the usual settings and no middlewares. -/
def blank : Plan ν := ⟨.standard, []⟩

instance : Inhabited (Plan ν) := ⟨blank⟩

/-- Makes a choice. -/
def choose (p : Plan ν) : Choice ν → Plan ν
  | .config config => { p with config }
  | .transport transport => { p with config := { p.config with transport } }
  | .dialTimeout dialTimeout => { p with config := { p.config with dialTimeout } }
  | .readBuffer readBuffer => { p with config := { p.config with readBuffer } }
  | .middleware m => { p with middlewares := p.middlewares ++ [m] }
  | .middlewares ms => { p with middlewares := p.middlewares ++ ms }

/-- The plan that some choices make. -/
def ofChoices (choices : List (Choice ν)) : Plan ν :=
  choices.foldl choose blank

/-- The settings that the client works with. -/
def settings (p : Plan ν) : Config := p.config.effective

/-- The round trip of the client. -/
def roundTrip (p : Plan ν) : RoundTrip ν :=
  chain p.middlewares (physical p.settings.readBuffer)

end Plan

end StreamCall.Client
