/-!
# Log levels
-/

namespace StreamCall

/-- The severity of an event. -/
inductive Level where
  | error
  | warn
  | info
  | debug
  | trace
deriving DecidableEq, Repr, Inhabited

/-- The name of a level as events show it. -/
def Level.name : Level → String
  | .error => "ERROR"
  | .warn => "WARN"
  | .info => "INFO"
  | .debug => "DEBUG"
  | .trace => "TRACE"

/-- A level as diagnostic output shows it. -/
def Level.diagnostic : Level → String
  | .error => "Level(Error)"
  | .warn => "Level(Warn)"
  | .info => "Level(Info)"
  | .debug => "Level(Debug)"
  | .trace => "Level(Trace)"

end StreamCall
