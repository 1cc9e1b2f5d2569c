import SchemaWire.Scalar.Kind
import SchemaWire.Decimal.Shortest

/-!
Numbers of a known kind, held as the bits that travel, and the three numeric scales on which they
are compared: signed whole numbers, natural numbers, and floating-point numbers of 64 bits.
-/

namespace SchemaWire

/-- A number: its kind and its bits. Two numbers are equal when both agree, so floats are told
apart by their bit patterns and equal values of different kinds are different numbers. -/
structure Num where
  kind : NumKind
  word : BitVec kind.bits
  deriving DecidableEq

inductive Number where
  | signed (value : Int)
  | unsigned (value : Nat)
  | float (pattern : BitVec 64)
  deriving Repr, DecidableEq

/-- Order of two numbers of one scale. Numbers of different scales are not compared, and neither is
what is no number. -/
def Number.compare? : Number → Number → Option Ordering
  | .signed a, .signed b => some (compare a b)
  | .unsigned a, .unsigned b => some (compare a b)
  | .float a, .float b => BinaryFormat.double.order? a.toNat b.toNat
  | _, _ => none

namespace Num

def zero (k : NumKind) : Num := ⟨k, 0⟩

/-- The number on the scale of its sort; a short float is widened, which is exact. -/
def number (n : Num) : Number :=
  match n.kind.sort with
  | .signed => .signed n.word.toInt
  | .unsigned => .unsigned n.word.toNat
  | .float =>
    .float <| BitVec.ofNat 64 <|
      if n.kind.format = .double then n.word.toNat
      else n.kind.format.convert .double n.word.toNat

def text (n : Num) : String :=
  match n.kind.sort with
  | .signed => toString n.word.toInt
  | .unsigned => toString n.word.toNat
  | .float => n.kind.format.text n.word.toNat

end Num

end SchemaWire
