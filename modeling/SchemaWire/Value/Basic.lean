import SchemaWire.Scalar.Num
import SchemaWire.Bytes
import SchemaWire.Text.Utf8

/-!
Values of schema types. A map keeps its entries, and a record its fields, in the order in which
they were given. The fields of a record are a table from names to values, in which a name that is
set again keeps its place.
-/

namespace SchemaWire

/-- The outward form of a value or of a type: what mismatches are reported in. -/
inductive Form where
  | scalar (kind : Kind)
  | optional
  | array
  | sequence
  | map
  | bytes
  | record
  deriving Repr, DecidableEq, Hashable

def Form.name : Form → String
  | .scalar k => k.name
  | .optional => "optional"
  | .array => "array"
  | .sequence => "sequence"
  | .map => "map"
  | .bytes => "bytes"
  | .record => "record"

inductive Value where
  | text (s : String)
  | flag (b : Bool)
  | num (n : Num)
  | absent
  | present (inner : Value)
  | array (items : List Value)
  | sequence (items : List Value)
  | map (entries : List (Value × Value))
  | bytes (bs : Bytes)
  | record (fields : List (String × Value))

namespace Value

instance : Inhabited Value := ⟨.absent⟩

def form : Value → Form
  | .text _ => .scalar .string
  | .flag _ => .scalar .bool
  | .num n => .scalar (.num n.kind)
  | .absent | .present _ => .optional
  | .array _ => .array
  | .sequence _ => .sequence
  | .map _ => .map
  | .bytes _ => .bytes
  | .record _ => .record

/-- The length that bounds on lengths count: bytes of a text or a byte string, elements of a
sequence. -/
def length? : Value → Option Nat
  | .text s => some (Text.utf8 s).length
  | .sequence items => some items.length
  | .bytes bs => some bs.length
  | _ => none

def number? : Value → Option Number
  | .num n => some n.number
  | _ => none

def text? : Value → Option String
  | .text s => some s
  | _ => none

end Value

/-! ### Records -/

abbrev Fields := List (String × Value)

namespace Fields

/-- The value under a name: the first one, should the name stand there twice. -/
def get? (name : String) : Fields → Option Value
  | [] => none
  | (n, v) :: fields => if n = name then some v else get? name fields

def insert (name : String) (value : Value) : Fields → Fields
  | [] => [(name, value)]
  | (n, v) :: fields =>
    if n = name then (n, value) :: fields else (n, v) :: insert name value fields

end Fields

end SchemaWire
