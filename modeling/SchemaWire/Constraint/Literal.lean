import SchemaWire.Scalar.Num
import SchemaWire.Decimal.Reading
import SchemaWire.Text.Quoted

/-!
Literals: the arguments of constraints that compare, read as values of one scalar kind. A numeral
that its kind cannot hold is no literal of that kind.
-/

namespace SchemaWire

/-- A constraint argument. Short floats are rounded to their own precision and then widened. -/
inductive Literal where
  | text (value : String)
  | flag (value : Bool)
  | signed (value : Int)
  | unsigned (value : Nat)
  | float (pattern : BitVec 64)
  deriving Repr, DecidableEq

namespace Literal

-- Powers in this file are the core library's.
attribute [local instance (high)] instPowNat

def fitsSigned (bits : Nat) (n : Int) : Bool := -(2 ^ (bits - 1) : Int) ≤ n && n < 2 ^ (bits - 1)

def fitsUnsigned (bits : Nat) (n : Nat) : Bool := n < 2 ^ bits

/-- A floating-point text of a format. A finite numeral of the longer format that overflows the
shorter one is refused. -/
def float? (f : BinaryFormat) (cs : List Char) : Option (BitVec 64) :=
  match f.read? cs, BinaryFormat.double.read? cs with
  | some x, some wide =>
    if f = .double then some (BitVec.ofNat 64 wide)
    else if f.isInfinite x && !BinaryFormat.double.isInfinite wide &&
        !BinaryFormat.double.isNan wide then none
    else some (BitVec.ofNat 64 (f.convert .double x))
  | _, _ => none

def parse? (k : Kind) (raw : String) : Option Literal :=
  match k with
  | .string => some (.text raw)
  | .bool =>
    if raw = "true" then some (.flag true)
    else if raw = "false" then some (.flag false)
    else none
  | .num k =>
    match k.sort with
    | .signed => ((Text.integer? raw.toList).filter (fitsSigned k.bits)).map .signed
    | .unsigned => ((Text.natural? raw.toList).filter (fitsUnsigned k.bits)).map .unsigned
    | .float => (float? k.format raw.toList).map .float

def toText : Literal → String
  | .text s => s
  | .flag b => toString b
  | .signed n => toString n
  | .unsigned n => toString n
  | .float x => BinaryFormat.double.text x.toNat

/-- The text of a literal in a list of choices, where texts stand in quotes. -/
def quoted : Literal → String
  | .text s => Text.quoted s
  | l => l.toText

def number? : Literal → Option Number
  | .signed n => some (.signed n)
  | .unsigned n => some (.unsigned n)
  | .float x => some (.float x)
  | .text _ | .flag _ => none

end Literal

end SchemaWire
