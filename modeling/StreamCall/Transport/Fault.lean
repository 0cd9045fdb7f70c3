import StreamCall.Text.Utf8
import StreamCall.Text.Quoted

/-!
# Faults of the transport

How a connection ends, why a connection attempt fails to start, and what reading or writing
a stream of a lost connection or a reset stream reports.  Codes that travel are capped:
they have 62 bits.
-/

namespace StreamCall.Transport

/-- The largest code that can travel. -/
def maxCode : Nat := Nat.pow 2 62 - 1

/-- The code that travels for a code. -/
def capCode (code : Nat) : Nat :=
  min code maxCode

/-- What is wrong on the level of the protocol. -/
inductive ProtocolCode where
  | noError
  | internalError
  | connectionRefused
  | flowControlError
  | streamLimitError
  | streamStateError
  | finalSizeError
  | frameEncodingError
  | transportParameterError
  | connectionIdLimitError
  | protocolViolation
  | invalidToken
  | applicationError
  | cryptoBufferExceeded
  | keyUpdateError
  | aeadLimitReached
  | noViablePath
  /-- The handshake failed with an alert. -/
  | crypto (alert : Nat)
deriving DecidableEq, Repr

/-- The text of a protocol code. -/
def ProtocolCode.message : ProtocolCode → String
  | .noError => "the connection is being closed abruptly in the absence of any error"
  | .internalError =>
    "the endpoint encountered an internal error and cannot continue with the connection"
  | .connectionRefused => "the server refused to accept a new connection"
  | .flowControlError => "received more data than permitted in advertised data limits"
  | .streamLimitError =>
    "received a frame for a stream identifier that exceeded advertised the stream limit "
      ++ "for the corresponding stream type"
  | .streamStateError =>
    "received a frame for a stream that was not in a state that permitted that frame"
  | .finalSizeError =>
    "received a STREAM frame or a RESET_STREAM frame containing a different final size "
      ++ "to the one already established"
  | .frameEncodingError => "received a frame that was badly formatted"
  | .transportParameterError =>
    "received transport parameters that were badly formatted, included an invalid value, "
      ++ "was absent even though it is mandatory, was present though it is forbidden, or "
      ++ "is otherwise in error"
  | .connectionIdLimitError =>
    "the number of connection IDs provided by the peer exceeds the advertised "
      ++ "active_connection_id_limit"
  | .protocolViolation =>
    "detected an error with protocol compliance that was not covered by more specific "
      ++ "error codes"
  | .invalidToken => "received an invalid Retry Token in a client Initial"
  | .applicationError =>
    "the application or application protocol caused the connection to be closed during "
      ++ "the handshake"
  | .cryptoBufferExceeded => "received more data in CRYPTO frames than can be buffered"
  | .keyUpdateError => "key update error"
  | .aeadLimitReached =>
    "the endpoint has reached the confidentiality or integrity limit for the AEAD algorithm"
  | .noViablePath => "no viable network path exists"
  | .crypto alert => "the cryptographic handshake failed: error " ++ toString alert

/-- Why a connection is lost. -/
inductive ConnectionFault where
  | versionMismatch
  | protocol (code : ProtocolCode) (reason : String)
  | closedByProtocol (code : ProtocolCode) (reason : Bytes)
  | closedByPeer (code : Nat) (reason : Bytes)
  | reset
  | timedOut
  | closedLocally
deriving DecidableEq, Repr

/-- A text behind a colon, if it is not empty. -/
def behindColon (reason : String) : String :=
  if reason.isEmpty then "" else ": " ++ reason

/-- The text of a connection fault. -/
def ConnectionFault.message : ConnectionFault → String
  | .versionMismatch => "peer doesn't implement any supported version"
  | .protocol code reason => code.message ++ behindColon reason
  | .closedByProtocol code reason =>
    "aborted by peer: " ++ code.message ++ behindColon (Utf8.lossy reason)
  | .closedByPeer code reason =>
    if reason.isEmpty then "closed by peer: " ++ toString code
    else "closed by peer: " ++ Utf8.lossy reason ++ " (code " ++ toString code ++ ")"
  | .reset => "reset by peer"
  | .timedOut => "timed out"
  | .closedLocally => "closed"

/-- Why a connection attempt is not started. -/
inductive ConnectFault where
  | endpointStopping
  | tooManyConnections
  | invalidDnsName (name : String)
  | invalidRemoteAddress (address : String)
  | noDefaultConfig
  | unsupportedVersion
deriving DecidableEq, Repr

/-- The text of a connect fault. -/
def ConnectFault.message : ConnectFault → String
  | .endpointStopping => "endpoint stopping"
  | .tooManyConnections => "too many connections"
  | .invalidDnsName name => "invalid DNS name: " ++ name
  | .invalidRemoteAddress address => "invalid remote address: " ++ address
  | .noDefaultConfig => "no default client config"
  | .unsupportedVersion => "unsupported QUIC version"

/-- What reading or writing a stream reports. -/
inductive StreamFault where
  /-- The peer reset the side that is read. -/
  | reset (code : Nat)
  /-- The peer stopped the side that is written. -/
  | stopped (code : Nat)
  | connectionLost (cause : ConnectionFault)
  | outOfOrder
  | rejected
  | unknownStream
deriving DecidableEq, Repr

/-- The text of a stream fault. -/
def StreamFault.message : StreamFault → String
  | .reset code => "stream reset by peer: error " ++ toString code
  | .stopped code => "sending stopped by peer: error " ++ toString code
  | .connectionLost _ => "connection lost"
  | .outOfOrder => "ordered read after unordered read"
  | .rejected => "0-RTT rejected"
  | .unknownStream => "unknown stream"

/-- The texts of what a stream fault comes from. -/
def StreamFault.chain : StreamFault → List String
  | .connectionLost cause => [cause.message]
  | _ => []

/-- The code the peer gave for a stream, if it ended the stream. -/
def StreamFault.code? : StreamFault → Option Nat
  | .reset code => some code
  | .stopped code => some code
  | _ => none

/-! ### Diagnostic output -/

/-- The name of a protocol code in diagnostic output. -/
def ProtocolCode.diagnostic : ProtocolCode → String
  | .noError => "NO_ERROR"
  | .internalError => "INTERNAL_ERROR"
  | .connectionRefused => "CONNECTION_REFUSED"
  | .flowControlError => "FLOW_CONTROL_ERROR"
  | .streamLimitError => "STREAM_LIMIT_ERROR"
  | .streamStateError => "STREAM_STATE_ERROR"
  | .finalSizeError => "FINAL_SIZE_ERROR"
  | .frameEncodingError => "FRAME_ENCODING_ERROR"
  | .transportParameterError => "TRANSPORT_PARAMETER_ERROR"
  | .connectionIdLimitError => "CONNECTION_ID_LIMIT_ERROR"
  | .protocolViolation => "PROTOCOL_VIOLATION"
  | .invalidToken => "INVALID_TOKEN"
  | .applicationError => "APPLICATION_ERROR"
  | .cryptoBufferExceeded => "CRYPTO_BUFFER_EXCEEDED"
  | .keyUpdateError => "KEY_UPDATE_ERROR"
  | .aeadLimitReached => "AEAD_LIMIT_REACHED"
  | .noViablePath => "NO_VIABLE_PATH"
  | .crypto alert => "Code::crypto(" ++ Text.hexDigits alert ++ ")"

/-- A connection fault in diagnostic output. -/
def ConnectionFault.diagnostic : ConnectionFault → String
  | .versionMismatch => "VersionMismatch"
  | .protocol code reason =>
    "TransportError(Error \x7b code: " ++ code.diagnostic ++ ", frame: None, reason: "
      ++ Text.quoted reason ++ " \x7d)"
  | .closedByProtocol code reason =>
    "ConnectionClosed(ConnectionClose \x7b error_code: " ++ code.diagnostic
      ++ ", frame_type: None, reason: b" ++ Text.quoted (Utf8.lossy reason) ++ " \x7d)"
  | .closedByPeer code reason =>
    "ApplicationClosed(ApplicationClose \x7b error_code: " ++ toString code ++ ", reason: b"
      ++ Text.quoted (Utf8.lossy reason) ++ " \x7d)"
  | .reset => "Reset"
  | .timedOut => "TimedOut"
  | .closedLocally => "LocallyClosed"

/-- A stream fault in diagnostic output. -/
def StreamFault.diagnostic : StreamFault → String
  | .reset code => "Reset(" ++ toString code ++ ")"
  | .stopped code => "Stopped(" ++ toString code ++ ")"
  | .connectionLost cause => "ConnectionLost(" ++ cause.diagnostic ++ ")"
  | .outOfOrder => "IllegalOrderedRead"
  | .rejected => "ZeroRttRejected"
  | .unknownStream => "UnknownStream"

/-- A connect fault in diagnostic output. -/
def ConnectFault.diagnostic : ConnectFault → String
  | .endpointStopping => "EndpointStopping"
  | .tooManyConnections => "TooManyConnections"
  | .invalidDnsName name => "InvalidDnsName(" ++ Text.quoted name ++ ")"
  | .invalidRemoteAddress address => "InvalidRemoteAddress(" ++ address ++ ")"
  | .noDefaultConfig => "NoDefaultClientConfig"
  | .unsupportedVersion => "UnsupportedVersion"

end StreamCall.Transport
