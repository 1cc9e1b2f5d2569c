import SchemaWire.Constraint.Basic
import SchemaWire.Value.Basic

/-!
Schemas: closed descriptions of what travels on the wire.

A schema may carry the display name of the type that it was expanded from. Names label schemas and
emitted source; they have no effect on the wire.
-/

namespace SchemaWire

/-- A field of a record, over the type of its schema. A skipped field never travels. -/
structure Field (τ : Type) where
  name : String
  type : τ
  skip : Bool
  constraints : List Constraint
  deriving Repr

namespace Field

variable {τ : Type}

def gates (f : Field τ) : List Constraint := f.constraints.filter (·.boundsLength)

def checks (f : Field τ) : List Constraint := f.constraints.filter (!·.boundsLength)

end Field

inductive Schema where
  | scalar (kind : Kind) (name : Option String)
  /-- a presence byte, and the element if it is present -/
  | optional (elem : Schema)
  /-- a fixed number of elements without a prefix -/
  | array (length : Nat) (elem : Schema) (name : Option String)
  | sequence (elem : Schema) (name : Option String)
  | map (key value : Schema) (name : Option String)
  /-- a sequence of bytes moved as a whole -/
  | bytes (name : Option String)
  /-- fields one after the other -/
  | record (name : Option String) (fields : List (Field Schema))
  deriving Repr

/-- The fields of a record schema, in wire order. -/
abbrev FieldList := List (Field Schema)

def FieldList.wire (fields : FieldList) : FieldList := fields.filter (!·.skip)

def FieldList.find? (fields : FieldList) (name : String) : Option (Field Schema) :=
  List.find? (fun f => f.name = name) fields

namespace Schema

instance : Inhabited Schema := ⟨.bytes none⟩

/-- The display name of the type that the schema was expanded from. -/
def name? : Schema → Option String
  | scalar _ name | array _ _ name | sequence _ name | map _ _ name | bytes name
  | record name _ => name
  | optional _ => none

/-- Labels the schema; an optional has no label of its own and stays as it is. -/
def withName (name : String) : Schema → Schema
  | scalar k _ => scalar k (some name)
  | optional e => optional e
  | array n e _ => array n e (some name)
  | sequence e _ => sequence e (some name)
  | map k v _ => map k v (some name)
  | bytes _ => bytes (some name)
  | record _ fields => record (some name) fields

def inner : Schema → Schema
  | optional e => e
  | s => s

def isOptional : Schema → Bool
  | optional _ => true
  | _ => false

def scalarKind? : Schema → Option Kind
  | scalar k _ => some k
  | _ => none

def form : Schema → Form
  | scalar k _ => .scalar k
  | optional _ => .optional
  | array .. => .array
  | sequence .. => .sequence
  | map .. => .map
  | bytes _ => .bytes
  | record .. => .record

def isPrefixed : Schema → Bool
  | scalar .string _ | sequence .. | map .. | bytes _ => true
  | _ => false

mutual

/-- The text of a schema: its name if it has one, its structure otherwise. Skipped fields do not
show. -/
def text : Schema → String
  | scalar k name => name.getD k.name
  | optional e => "*" ++ text e
  | array n e name => name.getD ("[" ++ toString n ++ "]" ++ text e)
  | sequence e name => name.getD ("[]" ++ text e)
  | map k v name => name.getD ("map[" ++ text k ++ "]" ++ text v)
  | bytes name => name.getD "[]byte"
  | record name fields =>
    name.getD ("struct\x7b" ++ "; ".intercalate (fieldTexts fields) ++ "\x7d")

def fieldTexts : List (Field Schema) → List String
  | [] => []
  | ⟨name, type, skip, _⟩ :: fields =>
    if skip then fieldTexts fields else (name ++ " " ++ text type) :: fieldTexts fields

end

attribute [local instance (high)] instPowNat in
def sizeLimit : Nat := 2 ^ (64 : Nat) - 1

mutual

/-- The least number of bytes that a value of the schema takes, as far as sizes are counted. -/
def minSize : Schema → Nat
  | scalar k _ => k.width?.getD 8
  | optional _ => 1
  | array n e _ => min sizeLimit (n * minSize e)
  | sequence .. | map .. | bytes _ => 8
  | record _ fields => fieldSizes fields

def fieldSizes : List (Field Schema) → Nat
  | [] => 0
  | ⟨_, type, skip, _⟩ :: fields =>
    if skip then fieldSizes fields else min sizeLimit (minSize type + fieldSizes fields)

end

mutual

/-- The zero value: no text, no items, nothing optional, zero numbers, records of zero fields. -/
def zero : Schema → Value
  | scalar .string _ => .text ""
  | scalar .bool _ => .flag false
  | scalar (.num k) _ => .num (.zero k)
  | optional _ => .absent
  | array n e _ => .array (List.replicate n (zero e))
  | sequence .. => .sequence []
  | map .. => .map []
  | bytes _ => .bytes []
  | record _ fields => .record (zeroFields fields)

def zeroFields : List (Field Schema) → List (String × Value)
  | [] => []
  | ⟨name, type, _, _⟩ :: fields => (name, zero type) :: zeroFields fields

end

end Schema

end SchemaWire
