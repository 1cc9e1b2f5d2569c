import SchemaWire.Decimal.Format

/-!
The decimal text of a binary number: the fewest digits that read back to it, the nearest such
decimal, always written out in full without an exponent.

Scaled by a power of ten that depends on the format alone, a finite value and the two midpoints
between it and its neighbours are whole numbers. A decimal reads back exactly when it lies between
the midpoints, the ends included if the magnitude is even. The search tries coarser grids of powers
of ten before finer ones; on the grid of ones the value itself is a point, so it always ends.
-/

namespace SchemaWire.BinaryFormat

-- Powers in this file are the core library's.
attribute [local instance (high)] instPowNat

/-- The decimal point stands this many digits from the right in a scaled value. -/
def places (f : BinaryFormat) : Nat := f.unitScale + 1

/-- The real numbers that round to a value, scaled: those between `low` and `high`, with the ends
if `closed`. -/
structure Basin where
  value : Nat
  low : Nat
  high : Nat
  closed : Bool
  deriving Repr, DecidableEq

def Basin.holds (b : Basin) (x : Nat) : Bool :=
  if b.closed then b.low ≤ x && x ≤ b.high else b.low < x && x < b.high

def basin (f : BinaryFormat) (m : Nat) : Basin :=
  let scale := 5 ^ f.places
  { value := 2 * f.units m * scale
    low := (f.units (m - 1) + f.units m) * scale
    high := (f.units m + f.units (m + 1)) * scale
    closed := m % 2 = 0 }

/-- The point of the grid `10 ^ k` that stands for the value: of the two next to it the nearer one
inside the basin, the upper one when both are equally near. -/
def Basin.onGrid? (b : Basin) (k : Nat) : Option Nat :=
  let step := 10 ^ k
  let below := b.value / step * step
  let above := below + step
  match b.holds below, b.holds above with
  | true, true => some (if b.value - below < above - b.value then below else above)
  | true, false => some below
  | false, true => some above
  | false, false => none

/-- The point on the coarsest grid that has one, from `10 ^ k` downwards. -/
def Basin.coarsest (b : Basin) : Nat → Nat
  | 0 => b.value
  | k + 1 => (b.onGrid? k).getD (b.coarsest k)

/-- The decimal chosen for a positive finite magnitude, scaled. -/
def shortest (f : BinaryFormat) (m : Nat) : Nat :=
  let b := f.basin m
  b.coarsest (Nat.toDigits 10 b.value).length

/-- Digits after the point, `count` of them and then without the zeros at the end. -/
def fractionDigits (count n : Nat) : List Char :=
  let ds := Nat.toDigits 10 n
  let padded := List.replicate (count - ds.length) '0' ++ ds
  (padded.reverse.dropWhile (· = '0')).reverse

/-- A scaled value written out: the whole part, and a point and more digits if it is not whole. -/
def positional (places n : Nat) : String :=
  let whole := toString (n / 10 ^ places)
  let fraction := n % 10 ^ places
  if fraction = 0 then whole
  else whole ++ "." ++ String.ofList (fractionDigits places fraction)

def text (f : BinaryFormat) (bits : Nat) : String :=
  let m := f.magnitude bits
  if f.isNan bits then "NaN"
  else
    let body :=
      if m = f.infinity then "inf"
      else if m = 0 then "0"
      else positional f.places (f.shortest m)
    if f.isNegative bits then "-" ++ body else body

end SchemaWire.BinaryFormat
