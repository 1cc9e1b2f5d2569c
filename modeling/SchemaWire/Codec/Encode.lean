import SchemaWire.Schema.Basic
import SchemaWire.Value.Basic
import SchemaWire.Wire.Writer

/-!
Encoding values by schema. Numbers travel little end first in the width of their kind, truth values
and presence as one byte, and what can be of any size follows its length. Fixed arrays and records
are their elements and fields one after the other; fields that the schema skips or does not know
are left out.

Encoding checks the shape of the value as it goes and stops at the first misfit. What was pushed
before stays in the sink. Constraints play no part.
-/

namespace SchemaWire

inductive EncodeError where
  | mismatch (expected found : Form)
  | arrayLength (expected found : Nat)
  | missingField (name : String)
  | sink (cause : WriteError)
  deriving Repr, DecidableEq

def EncodeError.message : EncodeError → String
  | .mismatch expected found => "expected a " ++ expected.name ++ " value, found " ++ found.name
  | .arrayLength expected found =>
    s!"fixed array expects {expected} elements, found {found}"
  | .missingField name => "record value is missing field '" ++ name ++ "'"
  | .sink cause => "byte sink failed: " ++ cause.message

/-- An encoder into a sink of the type `σ`. Encoders of values answer with the number of bytes
pushed. -/
abbrev Encoder (σ : Type) := EStateM EncodeError σ

namespace Encoder

variable {σ : Type}

def push (act : Push σ) : Encoder σ Nat := fun sink =>
  let (count, sink) := act sink
  .ok count sink

def andThen (first second : Encoder σ Nat) : Encoder σ Nat := do return (← first) + (← second)

def each {α : Type} (item : α → Encoder σ Nat) : List α → Encoder σ Nat
  | [] => return 0
  | a :: as => andThen (item a) (each item as)

def mismatch (expected : Form) (value : Value) : Encoder σ Nat :=
  throw (.mismatch expected value.form)

end Encoder

namespace Schema

open Encoder

variable {σ : Type} [Sink σ]

def writeScalar : Kind → Value → Encoder σ Nat
  | .string, .text s => push (.block (Text.utf8 s))
  | .bool, .flag b => push (.flag b)
  | .num k, .num n =>
    if n.kind = k then push (.word n.word) else mismatch (.scalar (.num k)) (.num n)
  | k, value => mismatch (.scalar k) value

mutual

def write : Schema → Value → Encoder σ Nat
  | .scalar k _, value => writeScalar k value
  | .optional elem, value =>
    match value with
    | .absent => push (.flag false)
    | .present inner => andThen (push (.flag true)) (write elem inner)
    | value => mismatch .optional value
  | .array n elem _, value =>
    match value with
    | .array items =>
      if items.length = n then each (write elem) items
      else throw (.arrayLength n items.length)
    | value => mismatch .array value
  | .sequence elem _, value =>
    match value with
    | .sequence items => andThen (push (.length items.length)) (each (write elem) items)
    | value => mismatch .sequence value
  | .map key val _, value =>
    match value with
    | .map entries =>
      andThen (push (.length entries.length))
        (each (fun e => andThen (write key e.1) (write val e.2)) entries)
    | value => mismatch .map value
  | .bytes _, value =>
    match value with
    | .bytes bs => push (.announced bs)
    | value => mismatch .bytes value
  | .record _ fields, value =>
    match value with
    | .record values => writeFields fields values
    | value => mismatch .record value

/-- Pushes the encodings of the fields that travel, which have to be there. -/
def writeFields : List (Field Schema) → Fields → Encoder σ Nat
  | [], _ => return 0
  | ⟨name, type, skip, _⟩ :: fields, values =>
    if skip then writeFields fields values
    else
      match values.get? name with
      | some value => andThen (write type value) (writeFields fields values)
      | none => throw (.missingField name)

end

def encode (schema : Schema) (value : Value) : Except EncodeError Bytes :=
  match schema.write value Buffer.empty with
  | .ok _ buffer => .ok buffer.toList
  | .error e _ => .error e

def encodedSize (schema : Schema) (value : Value) : Except EncodeError Nat :=
  match schema.write value Counter.mk with
  | .ok n _ => .ok n
  | .error e _ => .error e

/-- Writes the encoding of a value to a writer and flushes it. A misfit of the value comes before
any failure of the writer. -/
def stream (schema : Schema) (value : Value) : EStateM EncodeError Writer Unit := fun w =>
  match schema.write value (Latch.ofWriter w) with
  | .error e latch => .error e latch.writer
  | .ok _ latch =>
    match latch.finish with
    | some fault => .error (.sink fault) latch.writer
    | none => .ok () latch.writer

end Schema

end SchemaWire
