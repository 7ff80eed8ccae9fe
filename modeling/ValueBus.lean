import ValueBus.Bytes.Hex
import ValueBus.Codec
import ValueBus.Event.Scenario
import ValueBus.Polymorphic
import ValueBus.Proofs.Accessors
import ValueBus.Proofs.Aligning
import ValueBus.Proofs.Brackets
import ValueBus.Proofs.ByteRuns
import ValueBus.Proofs.Canonical
import ValueBus.Proofs.Delivery
import ValueBus.Proofs.Dispatch
import ValueBus.Proofs.Encodable
import ValueBus.Proofs.Freezing
import ValueBus.Proofs.Hierarchies
import ValueBus.Proofs.HookLog
import ValueBus.Proofs.HookOrder
import ValueBus.Proofs.MapReading
import ValueBus.Proofs.Mirror
import ValueBus.Proofs.PlainDocuments
import ValueBus.Proofs.RangedIntegers
import ValueBus.Proofs.Reference
import ValueBus.Proofs.Relaxing
import ValueBus.Proofs.Replaying
import ValueBus.Proofs.Rereading
import ValueBus.Proofs.ShortCircuit
import ValueBus.Proofs.Signatures
import ValueBus.Proofs.Termination
import ValueBus.Proofs.Truncation
import ValueBus.Proofs.Unbounded
import ValueBus.Proofs.Undisturbed
import ValueBus.Proofs.Widths
import ValueBus.Proofs.WireLayout
import ValueBus.Recording.Name
import ValueBus.Recording.Reader
import ValueBus.Recording.Writer
import ValueBus.Schema.Expression
import ValueBus.Schema.Signature
import ValueBus.Schema.Typing
import ValueBus.Variant
import ValueBus.Version
