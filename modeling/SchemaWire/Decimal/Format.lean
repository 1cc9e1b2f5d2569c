/-!
Binary interchange formats for real numbers, read through exact integers.

A bit pattern is a sign in front of a *magnitude*, and the magnitudes of a format are numbered in
the order of the reals they stand for. Every finite value is a whole number of *units*, the unit
being the least positive value of the format, so that comparing, rounding and printing need
natural numbers only.
-/

namespace SchemaWire

/-- A binary format, by the widths of its two fields below the sign. -/
structure BinaryFormat where
  fractionBits : Nat
  exponentBits : Nat
  deriving Repr, DecidableEq

namespace BinaryFormat

-- Powers in this file are the core library's.
attribute [local instance (high)] instPowNat

def single : BinaryFormat := ⟨23, 8⟩

def double : BinaryFormat := ⟨52, 11⟩

def signWeight (f : BinaryFormat) : Nat := 2 ^ (f.fractionBits + f.exponentBits)

/-- The magnitude of infinity; larger magnitudes are no numbers. -/
def infinity (f : BinaryFormat) : Nat := (2 ^ f.exponentBits - 1) * 2 ^ f.fractionBits

/-- The unit of the format is `2 ^ -unitScale`. -/
def unitScale (f : BinaryFormat) : Nat := 2 ^ (f.exponentBits - 1) - 2 + f.fractionBits

def isNegative (f : BinaryFormat) (bits : Nat) : Bool := f.signWeight ≤ bits

def magnitude (f : BinaryFormat) (bits : Nat) : Nat := bits % f.signWeight

def isNan (f : BinaryFormat) (bits : Nat) : Bool := f.infinity < f.magnitude bits

def isInfinite (f : BinaryFormat) (bits : Nat) : Bool := f.magnitude bits = f.infinity

def withSign (f : BinaryFormat) (negative : Bool) (magnitude : Nat) : Nat :=
  if negative then f.signWeight + magnitude else magnitude

def nan (f : BinaryFormat) : Nat := f.infinity + 2 ^ (f.fractionBits - 1)

/-- How many units a magnitude stands for. The magnitude of infinity gets the value that the next
number would have, were the exponents not at their end. -/
def units (f : BinaryFormat) (magnitude : Nat) : Nat :=
  let exponent := magnitude / 2 ^ f.fractionBits
  let fraction := magnitude % 2 ^ f.fractionBits
  if exponent = 0 then fraction
  else (2 ^ f.fractionBits + fraction) * 2 ^ (exponent - 1)

/-- Place of a number among those of the format: both zeros share one place. -/
def rank (f : BinaryFormat) (bits : Nat) : Int :=
  if f.isNegative bits then -(f.magnitude bits : Int) else f.magnitude bits

/-- The order of two bit patterns as numbers; none if one of them is no number. -/
def order? (f : BinaryFormat) (a b : Nat) : Option Ordering :=
  if f.isNan a || f.isNan b then none else some (compare (f.rank a) (f.rank b))

/-- A quotient rounded to the nearest whole number, a tie to the even one. -/
def roundEven (num den : Nat) : Nat :=
  let q := num / den
  let r := num % den
  if 2 * r < den then q
  else if den < 2 * r then q + 1
  else if q % 2 = 0 then q else q + 1

/-- The magnitude nearest to `num / den`, a tie going to the even one; past the largest finite
value it is infinity. -/
def nearest (f : BinaryFormat) (num den : Nat) : Nat :=
  let scaled := num * 2 ^ f.unitScale
  let shift := (scaled / den).log2 - f.fractionBits
  min f.infinity (shift * 2 ^ f.fractionBits + roundEven scaled (den * 2 ^ shift))

/-- The pattern of format `g` nearest to the value of a pattern of format `f`. -/
def convert (f g : BinaryFormat) (bits : Nat) : Nat :=
  let m := f.magnitude bits
  g.withSign (f.isNegative bits) <|
    if f.isNan bits then g.nan
    else if m = f.infinity then g.infinity
    else g.nearest (f.units m) (2 ^ f.unitScale)

end BinaryFormat

end SchemaWire
