import StreamCall.Client.Error
import StreamCall.Error.Level
import StreamCall.Panic

/-!
# Errors of a handler

What a handler fails with.  A `HandlerError` wraps any error and carries the code that
travels to the caller and the level at which the failure is logged, if the wrapped error
or the handler names them.  An `ApiError` is an application's own error with both.  A
panic that was caught is an error too.
-/

namespace StreamCall

/-- A JSON value attached to an application error. -/
inductive Detail where
  | null
  | boolean (b : Bool)
  | number (mantissa : Int) (exponent : Nat)
  | text (s : String)
  | list (items : List Detail)
  | object (members : List (String × Detail))
deriving Inhabited

/-- An error that a handler error can wrap. -/
inductive Source where
  /-- An error that is only a text. -/
  | message (text : String)
  | io (error : IoError)
  | json (error : Json.Error)
  | envelope (error : EnvelopeError)
  | panic (text : String)
  | client (error : ClientError)
  /-- An application error. -/
  | api (code : Nat) (text : String) (details : List (String × Detail))
      (cause : Option Source) (level : Level)
  /-- A handler error inside another. -/
  | handler (source : Source) (code : Option Nat) (level : Option Level)

instance : Inhabited Source := ⟨.message ""⟩

/-- What a handler fails with. -/
structure HandlerError where
  source : Source
  code : Option Nat
  level : Option Level
deriving Inhabited

/-- An application's own error. -/
structure ApiError where
  code : Nat
  text : String
  details : List (String × Detail)
  cause : Option Source
  level : Level
deriving Inhabited

/-- What stands for the stack at the time of a panic, whose contents are left open. -/
def stackTrace : String := "<backtrace>"

namespace Source

/-- The text of an error. -/
def display : Source → String
  | .message text => text
  | .io error => error.message
  | .json error => error.message
  | .envelope error => error.message
  | .panic text => "[PANIC RECOVER] " ++ text ++ "\n" ++ stackTrace
  | .client error => error.message
  | .api code text _ none _ => "error code: " ++ toString code ++ ", message: " ++ text
  | .api code text _ (some cause) _ =>
    "error code: " ++ toString code ++ ", message: " ++ text ++ ", cause: " ++ cause.display
  | .handler source _ _ => source.display

/-- The texts of what an error comes from, the nearest first. -/
def chain : Source → List String
  | .message _ => []
  | .io error => error.chain
  | .json _ => []
  | .envelope error => error.chain
  | .panic _ => []
  | .client error => error.chain
  | .api _ _ _ none _ => []
  | .api _ _ _ (some cause) _ => cause.display :: cause.chain
  | .handler source _ _ => source.display :: source.chain

/-- An optional value in diagnostic output. -/
def optional (text : Option String) : String :=
  match text with
  | none => "None"
  | some t => "Some(" ++ t ++ ")"

/-- A handler error's parts in diagnostic output. -/
def handlerDiagnostic (source : String) (code : Option Nat) (level : Option Level) : String :=
  "HandlerError \x7b source: " ++ source ++ ", code: " ++ optional (code.map toString)
    ++ ", level: " ++ optional (level.map Level.diagnostic) ++ " \x7d"

mutual

/-- A detail in diagnostic output. -/
def detailDiagnostic : Detail → String
  | .null => "Null"
  | .boolean b => "Bool(" ++ toString b ++ ")"
  | .number m 0 => "Number(" ++ toString m ++ ")"
  | .number m e => "Number(" ++ toString m ++ "e-" ++ toString e ++ ")"
  | .text s => "String(" ++ Text.quoted s ++ ")"
  | .list items => "Array [" ++ detailItems items ++ "]"
  | .object members => "Object \x7b" ++ detailMembers members ++ "\x7d"

/-- A list of details in diagnostic output. -/
def detailItems : List Detail → String
  | [] => ""
  | [d] => detailDiagnostic d
  | d :: ds => detailDiagnostic d ++ ", " ++ detailItems ds

/-- Named details in diagnostic output. -/
def detailMembers : List (String × Detail) → String
  | [] => ""
  | [(name, d)] => Text.quoted name ++ ": " ++ detailDiagnostic d
  | (name, d) :: ds =>
    Text.quoted name ++ ": " ++ detailDiagnostic d ++ ", " ++ detailMembers ds

end

/-- An application error's parts in diagnostic output. -/
def apiDiagnostic (code : Nat) (text : String) (details : List (String × Detail))
    (cause : Option String) (level : Level) : String :=
  "ApiError \x7b code: " ++ toString code ++ ", message: " ++ Text.quoted text
    ++ ", details: \x7b" ++ detailMembers details ++ "\x7d, cause: " ++ optional cause
    ++ ", level: " ++ level.diagnostic ++ " \x7d"

/-- An error in diagnostic output. -/
def diagnostic : Source → String
  | .message text => "Message(" ++ Text.quoted text ++ ")"
  | .io error => error.diagnostic
  | .json error => error.diagnostic
  | .envelope error => error.diagnostic
  | .panic text =>
    "RecoveredPanic \x7b message: " ++ Text.quoted text ++ ", backtrace: " ++ stackTrace
      ++ " \x7d"
  | .client error => error.diagnostic
  | .api code text details none level => apiDiagnostic code text details none level
  | .api code text details (some cause) level =>
    apiDiagnostic code text details (some cause.diagnostic) level
  | .handler source code level => handlerDiagnostic source.diagnostic code level

end Source

namespace HandlerError

/-- The code of failures that name none. -/
def internalCode : Nat := 500

/-- Wraps an error without asking it for a code or a level. -/
def other (source : Source) : HandlerError := ⟨source, none, none⟩

/-- An error that is only a text. -/
def msg (text : String) : HandlerError := other (.message text)

/-- Wraps an error together with the code and the level it names; only application errors
name any. -/
def classify (source : Source) : HandlerError :=
  match source with
  | .api code _ _ _ level => ⟨source, some code, some level⟩
  | _ => other source

/-- The error of a caught panic. -/
def ofPanic (payload : Payload) : HandlerError :=
  other (.panic payload.message)

/-- Sets the code. -/
def withCode (e : HandlerError) (code : Nat) : HandlerError := { e with code := some code }

/-- Sets the level. -/
def withLevel (e : HandlerError) (level : Level) : HandlerError :=
  { e with level := some level }

/-- The code that travels. -/
def wireCode (e : HandlerError) : Nat := e.code.getD internalCode

/-- The level at which the failure is logged. -/
def logLevel (e : HandlerError) : Level := e.level.getD .error

/-- The error as one that can be wrapped. -/
def toSource (e : HandlerError) : Source := .handler e.source e.code e.level

/-- The text of an error. -/
def display (e : HandlerError) : String := e.source.display

/-- The texts of what an error comes from, the wrapped error first. -/
def chain (e : HandlerError) : List String := e.source.display :: e.source.chain

/-- An error in diagnostic output. -/
def diagnostic (e : HandlerError) : String :=
  Source.handlerDiagnostic e.source.diagnostic e.code e.level

end HandlerError

namespace ApiError

/-- An error with a code and a text. -/
def new (code : Nat) (text : String) (cause : Option Source) : ApiError :=
  ⟨code, text, [], cause, .error⟩

/-- An error of the service itself; its cause is logged and not told. -/
def internal (cause : Source) : ApiError :=
  ⟨HandlerError.internalCode, "internal service error", [], some cause, .error⟩

/-- An expected error of the application, which is logged as a warning. -/
def business (code : Nat) (text : String) (cause : Option Source) : ApiError :=
  ⟨code, text, [], cause, .warn⟩

/-- Sets the level. -/
def withLevel (e : ApiError) (level : Level) : ApiError := { e with level }

/-- Sets the details. -/
def withDetails (e : ApiError) (details : List (String × Detail)) : ApiError :=
  { e with details }

/-- The error as one that can be wrapped. -/
def toSource (e : ApiError) : Source := .api e.code e.text e.details e.cause e.level

/-- The text of an error. -/
def display (e : ApiError) : String := e.toSource.display

/-- The texts of what an error comes from. -/
def chain (e : ApiError) : List String := e.toSource.chain

end ApiError

end StreamCall
