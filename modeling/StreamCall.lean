import StreamCall.Address
import StreamCall.Base64
import StreamCall.Duration
import StreamCall.Text.Blank
import StreamCall.Text.Quoted
import StreamCall.Json.Decimal
import StreamCall.Json.Fault
import StreamCall.Json.Scan
import StreamCall.Json.Number
import StreamCall.Json.Skip
import StreamCall.Json.Value
import StreamCall.Envelope.Document
import StreamCall.Envelope.Limit
import StreamCall.RequestId
import StreamCall.Error.Handler
import StreamCall.Server.Error
import StreamCall.Context.Family
import StreamCall.Program
import StreamCall.Stream.Memory
import StreamCall.Stream.Layer
import StreamCall.Stream.Reading
import StreamCall.Server.Middleware
import StreamCall.Rehearsal.Run
import StreamCall.Client.Config
import StreamCall.Tls.Identity
import StreamCall.Client.Send
import StreamCall.Rehearsal.Call
import StreamCall.Rehearsal.Session
import StreamCall.Client.Race
import StreamCall.Server.Plan
import StreamCall.Client.Line
import StreamCall.Client.Delivery
import StreamCall.Client.Crowd
import StreamCall.Server.Life
import StreamCall.Server.Shell
import StreamCall.Proofs.Json.Grammar
import StreamCall.Proofs.Json.Passing
import StreamCall.Proofs.Json.Longer
import StreamCall.Proofs.Base64
import StreamCall.Proofs.Envelope.Headers
import StreamCall.Proofs.Envelope.Meaning
import StreamCall.Proofs.Envelope.Reading
import StreamCall.Proofs.Envelope.Writing
import StreamCall.Proofs.Envelope.RoundTrip
import StreamCall.Proofs.Envelope.Delimiting
import StreamCall.Proofs.Program
import StreamCall.Proofs.Context.Origin
import StreamCall.Proofs.Server.Deeds
import StreamCall.Proofs.Server.DefaultChain
import StreamCall.Proofs.Server.Observation
import StreamCall.Proofs.Stream.Input
import StreamCall.Proofs.Server.Stage
import StreamCall.Proofs.Server.Admission
import StreamCall.Proofs.Stream.Exchange
import StreamCall.Proofs.Stream.Wire
import StreamCall.Proofs.Server.Accepted
import StreamCall.Proofs.Client.RoundTrip
import StreamCall.Proofs.Client.Transparency
import StreamCall.Proofs.Client.Secrecy
import StreamCall.Proofs.Envelope.Size
import StreamCall.Proofs.Envelope.Limit
import StreamCall.Proofs.Stream.Layers
import StreamCall.Proofs.Stream.Feed
import StreamCall.Proofs.Stream.Limit
import StreamCall.Proofs.Stream.Excess
import StreamCall.Proofs.Stream.Tee
import StreamCall.Proofs.Server.Layered
import StreamCall.Proofs.Server.Standard
import StreamCall.Proofs.Server.Failure
import StreamCall.Proofs.Server.Limits
import StreamCall.Proofs.Server.Signals
import StreamCall.Proofs.Server.Draining
import StreamCall.Proofs.Server.Answer
import StreamCall.Proofs.Server.Shell
import StreamCall.Proofs.Server.Traffic
import StreamCall.Proofs.Client.Race
import StreamCall.Proofs.Client.Ledger
import StreamCall.Proofs.Client.Agreement
import StreamCall.Proofs.Client.Arrival
import StreamCall.Proofs.Client.Rejection
import StreamCall.Proofs.Client.Chunking
import StreamCall.Proofs.RequestId
import StreamCall.Proofs.Client.Relay
import StreamCall.Proofs.Server.Locality
import StreamCall.Proofs.Client.Locality
import StreamCall.Proofs.Client.Crowd
import StreamCall.Proofs.Client.Upkeep
import StreamCall.Proofs.Client.Mirror
import StreamCall.Proofs.Client.Isolation
import StreamCall.Proofs.Client.Cancellation
import StreamCall.Proofs.Stream.Stack
import StreamCall.Proofs.Trace
import StreamCall.Proofs.Nesting
import StreamCall.Proofs.Order
import StreamCall.Proofs.Stream.Sides
import StreamCall.Proofs.Address
