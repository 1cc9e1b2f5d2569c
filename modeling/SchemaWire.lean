import SchemaWire.Codec.Decode
import SchemaWire.Codec.Encode
import SchemaWire.Constraint.Check
import SchemaWire.Constraint.Compile
import SchemaWire.Schema.Compiled
import SchemaWire.Source.Layout
import SchemaWire.Static.Codec
import SchemaWire.Value.Equality
import SchemaWire.Value.Text
import SchemaWire.Proofs.Wire.Reading
import SchemaWire.Proofs.Schema.Records
import SchemaWire.Proofs.Value.Entries
import SchemaWire.Proofs.Codec.Emission
import SchemaWire.Proofs.Codec.Reading
import SchemaWire.Proofs.Codec.Normal
import SchemaWire.Proofs.Codec.RoundTrip
import SchemaWire.Proofs.Schema.Built
import SchemaWire.Proofs.Codec.Decoded
import SchemaWire.Proofs.Codec.Marks
import SchemaWire.Proofs.Codec.Canonical
import SchemaWire.Proofs.Codec.Validation
import SchemaWire.Proofs.Static.Agreement
import SchemaWire.Proofs.Codec.PrefixFree
import SchemaWire.Proofs.Codec.Streaming
import SchemaWire.Proofs.Schema.Cycles
import SchemaWire.Proofs.Schema.Nesting
import SchemaWire.Proofs.Schema.WellFormed
import SchemaWire.Proofs.Source.Collected
import SchemaWire.Proofs.Source.SelfContained
import SchemaWire.Proofs.Source.Emitted
import SchemaWire.Proofs.Codec.Sinks
import SchemaWire.Proofs.Codec.WireFields
import SchemaWire.Proofs.Codec.Bounded
import SchemaWire.Proofs.Codec.Naming
import SchemaWire.Proofs.Codec.FieldOrder
import SchemaWire.Proofs.Codec.LastWins
import SchemaWire.Proofs.Codec.LeastSize
import SchemaWire.Proofs.Static.RoundTrip
import SchemaWire.Proofs.Codec.Octets
import SchemaWire.Proofs.Schema.Termination
import SchemaWire.Proofs.Codec.NumericBounds
import SchemaWire.Proofs.Constraint.Range
import SchemaWire.Proofs.Value.Equivalence
import SchemaWire.Proofs.Constraint.Choices
import SchemaWire.Proofs.Constraint.Comparison
import SchemaWire.Proofs.Source.Emittable
import SchemaWire.Proofs.Constraint.Tags
import SchemaWire.Proofs.Wire.Operations
import SchemaWire.Proofs.Codec.EqualValues
import SchemaWire.Proofs.Schema.Faults
import SchemaWire.Proofs.Constraint.Concatenation
import SchemaWire.Proofs.Value.FiniteMap
import SchemaWire.Proofs.Wire.Calls
import SchemaWire.Proofs.Value.Hashing
import SchemaWire.Proofs.Shape.Base64
import SchemaWire.Proofs.Wire.LengthPrefix
