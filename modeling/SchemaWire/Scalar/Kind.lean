import SchemaWire.Decimal.Format

/-!
The kinds of scalar that a schema can hold: text, truth values, and thirteen numeric kinds, each a
word of a fixed number of bytes. The native kinds `int`, `uint` and `uintptr` are eight bytes wide
whatever the machine.
-/

namespace SchemaWire

inductive NumSort where
  | signed
  | unsigned
  | float
  deriving Repr, DecidableEq

inductive NumKind where
  | int | int8 | int16 | int32 | int64
  | uint | uint8 | uint16 | uint32 | uint64 | uintptr
  | float32 | float64
  deriving Repr, DecidableEq, Hashable

namespace NumKind

def all : List NumKind :=
  [.int, .int8, .int16, .int32, .int64, .uint, .uint8, .uint16, .uint32, .uint64, .uintptr,
   .float32, .float64]

def name : NumKind → String
  | .int => "int"
  | .int8 => "int8"
  | .int16 => "int16"
  | .int32 => "int32"
  | .int64 => "int64"
  | .uint => "uint"
  | .uint8 => "uint8"
  | .uint16 => "uint16"
  | .uint32 => "uint32"
  | .uint64 => "uint64"
  | .uintptr => "uintptr"
  | .float32 => "float32"
  | .float64 => "float64"

def sort : NumKind → NumSort
  | .int | .int8 | .int16 | .int32 | .int64 => .signed
  | .uint | .uint8 | .uint16 | .uint32 | .uint64 | .uintptr => .unsigned
  | .float32 | .float64 => .float

def width : NumKind → Nat
  | .int8 | .uint8 => 1
  | .int16 | .uint16 => 2
  | .int32 | .uint32 | .float32 => 4
  | .int | .int64 | .uint | .uint64 | .uintptr | .float64 => 8

abbrev bits (k : NumKind) : Nat := 8 * k.width

def format : NumKind → BinaryFormat
  | .float32 => .single
  | _ => .double

theorem width_pos (k : NumKind) : 0 < k.width := by cases k <;> decide

end NumKind

inductive Kind where
  | string
  | bool
  | num (kind : NumKind)
  deriving Repr, DecidableEq, Hashable

namespace Kind

def all : List Kind := .string :: .bool :: NumKind.all.map .num

def name : Kind → String
  | .string => "string"
  | .bool => "bool"
  | .num k => k.name

/-- Width on the wire, in bytes; text has none of its own and follows a length prefix. -/
def width? : Kind → Option Nat
  | .string => none
  | .bool => some 1
  | .num k => some k.width

def sort? : Kind → Option NumSort
  | .num k => some k.sort
  | _ => none

def isSigned (k : Kind) : Bool := k.sort? = some .signed
def isUnsigned (k : Kind) : Bool := k.sort? = some .unsigned
def isFloat (k : Kind) : Bool := k.sort? = some .float
def isNumeric (k : Kind) : Bool := k.sort?.isSome

end Kind

end SchemaWire
