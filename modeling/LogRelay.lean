import LogRelay.Deployment
import LogRelay.Proofs.Record.Ceiling
import LogRelay.Proofs.Record.Decoding
import LogRelay.Proofs.Record.OneLine
import LogRelay.Proofs.Record.Parts
import LogRelay.Proofs.Text.Split
import LogRelay.Proofs.Transport.Flush
import LogRelay.Redial.Script
import LogRelay.Redial.Switchboard
import LogRelay.Transport.Gate
import LogRelay.Proofs.Redial.Connections
import LogRelay.Proofs.Redial.Guard
import LogRelay.Proofs.Mask.Passwords
import LogRelay.Proofs.Registry.Move
import LogRelay.Proofs.Registry.Sharing
import LogRelay.Proofs.Transport.Ending
import LogRelay.Proofs.Transport.Shutdown
import LogRelay.Proofs.Transport.Buffers
import LogRelay.Proofs.Transport.Panic
import LogRelay.Proofs.Transport.Awaited
import LogRelay.Proofs.Transport.Admission
import LogRelay.Proofs.Json.Written
import LogRelay.Proofs.Json.Tokens
import LogRelay.Proofs.Json.Reading
import LogRelay.Proofs.Json.Compact
import LogRelay.Proofs.Payload.Order
import LogRelay.Proofs.Payload.RoundTrip
import LogRelay.Proofs.Config.Listing
import LogRelay.Proofs.Record.Presence
import LogRelay.Proofs.Registry.Gate
import LogRelay.Proofs.Datagram.Stalled
import LogRelay.Proofs.Record.Escapes
import LogRelay.Proofs.Record.Shares
import LogRelay.Proofs.Redial.Attempts
import LogRelay.Proofs.Mask.Dissection
import LogRelay.Proofs.Json.Floating
import LogRelay.Proofs.Payload.Reading
import LogRelay.Proofs.Payload.Canonical
import LogRelay.Proofs.Payload.Acceptance
import LogRelay.Proofs.Timestamp.Reading
import LogRelay.Proofs.Trace.Selection
import LogRelay.Proofs.Trace.Printing
import LogRelay.Proofs.Trace.Component
import LogRelay.Proofs.Trace.Choice
import LogRelay.Proofs.Pool.Idle
import LogRelay.Proofs.Registry.Open
import LogRelay.Proofs.Severity.Naming
