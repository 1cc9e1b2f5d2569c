import SchemaWire.Decimal.Format

/-!
Reading decimal text: numerals of integers, and binary numbers.

A numeral is ASCII digits, at least one, leading zeros allowed, after an optional sign. A natural
number admits a plus sign only, so a negative zero is none.

The text of a binary number is an optional sign followed by digits with at most one point among or
beside them and an optional power of ten, or by one of the words for infinity and for no number, in
letters of either case. The value of the digits is exact; it is rounded once.
-/

namespace SchemaWire

/-! ### Numerals -/

namespace Text

def digitValue? (c : Char) : Option Nat :=
  if '0' ≤ c && c ≤ '9' then some (c.toNat - '0'.toNat) else none

/-- The number written by these digits after the digits of `before`; digits only. -/
def digitsFrom? (before : Nat) : List Char → Option Nat
  | [] => some before
  | c :: cs => (digitValue? c).bind fun d => digitsFrom? (10 * before + d) cs

def digits? (cs : List Char) : Option Nat :=
  if cs.isEmpty then none else digitsFrom? 0 cs

def natural? : List Char → Option Nat
  | '+' :: cs => digits? cs
  | cs => digits? cs

def integer? : List Char → Option Int
  | '-' :: cs => (digits? cs).map fun n => -(n : Int)
  | cs => (natural? cs).map Int.ofNat

end Text

/-! ### Binary numbers -/

/-- What a decimal text denotes, its sign apart: `digits * 10 ^ exponent`, infinity, or nothing. -/
inductive RealText where
  | finite (digits : Nat) (exponent : Int)
  | infinite
  | nan
  deriving Repr, DecidableEq

namespace RealText

def spanDigits (cs : List Char) : List Char × List Char :=
  cs.span fun c => (Text.digitValue? c).isSome

/-- The power of ten at the end of a text: none, or a mark and a whole number. -/
def exponent? : List Char → Option Int
  | [] => some 0
  | c :: cs => if c = 'e' || c = 'E' then Text.integer? cs else none

/-- Digits, a point, digits, and a power of ten; at least one digit on either side of the point. -/
def number? (cs : List Char) : Option RealText :=
  let (whole, rest) := spanDigits cs
  let (fraction, rest) :=
    match rest with
    | '.' :: rest => spanDigits rest
    | rest => ([], rest)
  match Text.digits? (whole ++ fraction), exponent? rest with
  | some digits, some e => some (.finite digits (e - fraction.length))
  | _, _ => none

def unsigned? (cs : List Char) : Option RealText :=
  match String.ofList (cs.map Char.toLower) with
  | "inf" => some .infinite
  | "infinity" => some .infinite
  | "nan" => some .nan
  | _ => number? cs

def read? : List Char → Option (Bool × RealText)
  | '-' :: cs => (unsigned? cs).map (true, ·)
  | '+' :: cs => (unsigned? cs).map (false, ·)
  | cs => (unsigned? cs).map (false, ·)

end RealText

namespace BinaryFormat

-- Powers in this file are the core library's.
attribute [local instance (high)] instPowNat

/-- The magnitude nearest to `digits * 10 ^ exponent`. Powers of ten far outside the format's range
are settled without computing them. -/
def ofDecimal (f : BinaryFormat) (digits : Nat) (exponent : Int) : Nat :=
  if digits = 0 then 0
  else if (f.unitScale : Int) < exponent then f.infinity
  else if exponent + (Nat.toDigits 10 digits).length < -(f.unitScale : Int) then 0
  else f.nearest (digits * 10 ^ exponent.toNat) (10 ^ (-exponent).toNat)

def read? (f : BinaryFormat) (cs : List Char) : Option Nat :=
  (RealText.read? cs).map fun (negative, value) =>
    f.withSign negative <|
      match value with
      | .finite digits e => f.ofDecimal digits e
      | .infinite => f.infinity
      | .nan => f.nan

end BinaryFormat

end SchemaWire
