import StreamCall.Error.Io

/-!
# Errors of starting a server
-/

namespace StreamCall

/-- Why a server does not start to listen. -/
inductive ServerError where
  | missingTlsConfig
  | invalidAddress (address reason : String)
  | bindFailed (address : String) (source : IoError)

namespace ServerError

/-- The name of the kind of an error. -/
def name : ServerError → String
  | .missingTlsConfig => "MissingTlsConfig"
  | .invalidAddress _ _ => "InvalidAddress"
  | .bindFailed _ _ => "BindFailed"

/-- The text of an error. -/
def message : ServerError → String
  | .missingTlsConfig => "TLS config must be set"
  | .invalidAddress address reason => "invalid address '" ++ address ++ "': " ++ reason
  | .bindFailed address source => "failed to bind to " ++ address ++ ": " ++ source.message

/-- The texts of what an error comes from. -/
def chain : ServerError → List String
  | .bindFailed _ source => source.message :: source.chain
  | _ => []

/-- Writes the address in an error in another way. -/
def mapAddress (f : String → String) : ServerError → ServerError
  | .missingTlsConfig => .missingTlsConfig
  | .invalidAddress address reason => .invalidAddress (f address) reason
  | .bindFailed address source => .bindFailed (f address) source

end ServerError

end StreamCall
