/-!
Domain labels that spell characters beyond ASCII with ASCII letters and digits. The plain
characters come first; after the last hyphen, numbers of variable length say which character to
insert next and where. The weight of a digit adapts to the numbers read so far.
-/

namespace SchemaWire.Punycode

/-- The value of a digit in base 36: letters of either case, then decimal digits. -/
def digitValue? (c : Char) : Option Nat :=
  if 'a' ≤ c && c ≤ 'z' then some (c.toNat - 97)
  else if 'A' ≤ c && c ≤ 'Z' then some (c.toNat - 65)
  else if '0' ≤ c && c ≤ '9' then some (c.toNat - 22)
  else none

/-- The digit at position `k` ends its number when it is below this. -/
def threshold (bias k : Nat) : Nat := max 1 (min 26 (k - bias))

/-- Divides `delta` by 35 until it is small, counting 36 for each division. -/
def settle (k delta : Nat) : Nat × Nat :=
  if 455 < delta then settle (k + 36) (delta / 35) else (k, delta)
termination_by delta
decreasing_by exact Nat.div_lt_self (by omega) (by decide)

/-- The bias after a number `delta` that brought the text to `count` characters. -/
def adapt (delta count : Nat) (first : Bool) : Nat :=
  let delta := if first then delta / 700 else delta / 2
  let (k, delta) := settle 0 (delta + delta / count)
  k + 36 * delta / (delta + 38)

/-- One number, its digits least significant first, and the rest. -/
def number? (bias k weight value : Nat) : List Char → Option (Nat × List Char)
  | [] => none
  | c :: cs =>
    (digitValue? c).bind fun d =>
      let t := threshold bias k
      if d < t then some (value + d * weight, cs)
      else number? bias (k + 36) (weight * (36 - t)) (value + d * weight) cs

/-- The characters inserted by the numbers that follow, at most `count` of them. -/
def insertions? : Nat → (bias code index : Nat) → List Char → List Char → Option (List Char)
  | _, _, _, _, text, [] => some text
  | 0, _, _, _, _, _ :: _ => none
  | count + 1, bias, code, index, text, cs =>
    match number? bias 36 1 0 cs with
    | none => none
    | some (delta, rest) =>
      let length := text.length + 1
      let code' := code + (index + delta) / length
      let index' := (index + delta) % length
      if code'.isValidChar then
        insertions? count (adapt delta length (code = 128 && index = 0 && text.all (·.toNat < 128)))
          code' (index' + 1) (text.insertIdx index' (Char.ofNat code')) rest
      else none

def decode? (label : List Char) : Option (List Char) :=
  let tail := (label.reverse.takeWhile (· ≠ '-')).reverse
  let head := label.take (label.length - tail.length - 1)
  if head.all (·.toNat < 128) then insertions? tail.length 72 128 0 head tail else none

end SchemaWire.Punycode
