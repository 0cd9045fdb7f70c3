import StreamCall.Error.Io
import StreamCall.Json.Fault

/-!
# Errors of moving an envelope
-/

namespace StreamCall

/-- Why an envelope could not be read, written, decoded or encoded, or was not admitted. -/
inductive EnvelopeError where
  | read (source : IoError)
  | write (source : IoError)
  | decodeRequest (source : Json.Error)
  | decodeResponse (source : Json.Error)
  | bodyTooLarge (size limit : Nat)
  | encode (source : Json.Error)

/-- A document error in diagnostic output. -/
def Json.Error.diagnostic (e : Json.Error) : String :=
  "Error(" ++ Text.quoted e.cause.message ++ ", line: " ++ toString e.line ++ ", column: "
    ++ toString e.column ++ ")"

namespace EnvelopeError

/-- The text of an error. -/
def message : EnvelopeError → String
  | .read source => "read envelope: " ++ source.message
  | .write source => "write envelope: " ++ source.message
  | .decodeRequest source => "decode request: " ++ source.message
  | .decodeResponse source => "decode response: " ++ source.message
  | .bodyTooLarge size limit =>
    "request body of " ++ toString size ++ " bytes exceeds limit of " ++ toString limit
      ++ " bytes"
  | .encode source => "encode envelope: " ++ source.message

/-- The name of the kind of an error. -/
def name : EnvelopeError → String
  | .read _ => "Read"
  | .write _ => "Write"
  | .decodeRequest _ => "DecodeRequest"
  | .decodeResponse _ => "DecodeResponse"
  | .bodyTooLarge _ _ => "BodyTooLarge"
  | .encode _ => "Encode"

/-- The texts of what an error comes from. -/
def chain : EnvelopeError → List String
  | .read source => source.message :: source.chain
  | .write source => source.message :: source.chain
  | .decodeRequest source => [source.message]
  | .decodeResponse source => [source.message]
  | .bodyTooLarge _ _ => []
  | .encode source => [source.message]

/-- The code the peer ended the stream with, if that is the error. -/
def streamCode? : EnvelopeError → Option Nat
  | .read source => source.streamCode?
  | .write source => source.streamCode?
  | _ => none

/-- An error in diagnostic output. -/
def diagnostic (e : EnvelopeError) : String :=
  let fields :=
    match e with
    | .read source => "source: " ++ source.diagnostic
    | .write source => "source: " ++ source.diagnostic
    | .decodeRequest source => "source: " ++ source.diagnostic
    | .decodeResponse source => "source: " ++ source.diagnostic
    | .bodyTooLarge size limit => "size: " ++ toString size ++ ", limit: " ++ toString limit
    | .encode source => "source: " ++ source.diagnostic
  e.name ++ " \x7b " ++ fields ++ " \x7d"

end EnvelopeError

end StreamCall
