import SchemaWire.Constraint.Check
import SchemaWire.Schema.Basic
import SchemaWire.Value.Index
import SchemaWire.Wire.Reader

/-!
Decoding values by schema. A value is read as it comes, depth first, and the first failure ends
the reading. A field with constraints is read in one order whatever the order of their
declaration: bounds on its length are checked between the length and the contents, all other
constraints on the value.

Of the entries of a map, a key that comes again keeps its place and takes the later value.
-/

namespace SchemaWire.Schema

open Reader

mutual

/-- Reads a value whose length, if it has one, is bounded by `gate`. Bounds on an optional value
are about its contents. -/
def read (gate : List Constraint) : Schema → Reader Value
  | .scalar .string _ => return .text (← Reader.text (← gatedLength gate))
  | .scalar .bool _ => return .flag (← flag)
  | .scalar (.num k) _ => return .num ⟨k, ← word k.width⟩
  | .optional elem => do
    if ← flag then return .present (← read (if elem.isPrefixed then gate else []) elem)
    else return .absent
  | .array n elem _ => return .array (← times (read [] elem) n)
  | .sequence elem _ => return .sequence (← times (read [] elem) (← gatedLength gate))
  | .map key val _ => do
    let entries ← times (return (← read [] key, ← read [] val)) (← gatedLength gate)
    return .map (EntryTable.ofList entries).toList
  | .bytes _ => return .bytes (← take (← gatedLength gate))
  | .record _ fields => return .record (← readFields fields)

def readField : Field Schema → Reader Value
  | ⟨_, type, skip, constraints⟩ =>
    if skip then return type.zero
    else do
      let value ← read (constraints.filter (·.boundsLength)) type
      require (·.accepts value) (constraints.filter (!·.boundsLength))
      return value

def readFields : List (Field Schema) → Reader Fields
  | [] => return []
  | field :: fields => do
    let value ← readField field
    return (field.name, value) :: (← readFields fields)

end

def reader (schema : Schema) : Reader Value := schema.read []

/-- The value that the input starts with; what follows it does not matter. -/
def decode (schema : Schema) (input : Bytes) : Except DecodeError Value := schema.reader.run input

/-- The value of which the input is an encoding, with nothing left over. -/
def decodeAll (schema : Schema) (input : Bytes) : Except DecodeError Value :=
  Reader.run (do let value ← schema.reader; atEnd; return value) input

end SchemaWire.Schema
