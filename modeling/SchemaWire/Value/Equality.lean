import SchemaWire.Value.Basic

/-!
Equality of values. Floats are equal when their bits are, kinds are kept apart, and neither the
entries of a map nor the fields of a record are ordered: a map equals another of the same size that
holds each of its entries, a record one of the same size that has an equal value under each of its
names.

The question "does the other side hold this entry" is put to the other side, so the two values
change places on the way down into maps and records. The functions below recurse into the one
value and carry along on which side of the comparison it stands.
-/

namespace SchemaWire

namespace Value

mutual

/-- Compares `a` with `b`; `a` is the right-hand side if `swapped`. -/
def equal (swapped : Bool) : Value → Value → Bool
  | .text a, b => match b with | .text b => a = b | _ => false
  | .flag a, b => match b with | .flag b => a = b | _ => false
  | .num a, b => match b with | .num b => a = b | _ => false
  | .absent, b => match b with | .absent => true | _ => false
  | .present a, b => match b with | .present b => equal swapped a b | _ => false
  | .array as, b => match b with | .array bs => equalItems swapped as bs | _ => false
  | .sequence as, b => match b with | .sequence bs => equalItems swapped as bs | _ => false
  | .map as, b =>
    match b with
    | .map bs => as.length = bs.length && match swapped with
      | false => eachHeldBy as bs
      | true => bs.all fun e => holdsEntry as e
    | _ => false
  | .bytes a, b => match b with | .bytes b => a = b | _ => false
  | .record as, b =>
    match b with
    | .record bs => as.length = bs.length && match swapped with
      | false => eachFieldOf as bs
      | true => bs.all fun f => hasField as f
    | _ => false
termination_by structural a => a

def equalItems (swapped : Bool) : List Value → List Value → Bool
  | [], bs => bs.isEmpty
  | a :: as, bs =>
    match bs with
    | [] => false
    | b :: bs => equal swapped a b && equalItems swapped as bs
termination_by structural a => a

def eachHeldBy : List (Value × Value) → List (Value × Value) → Bool
  | [], _ => true
  | (k, v) :: as, bs =>
    (bs.any fun e => equal true k e.1 && equal true v e.2) && eachHeldBy as bs
termination_by structural a => a

def holdsEntry : List (Value × Value) → Value × Value → Bool
  | [], _ => false
  | (k, v) :: as, e => (equal false k e.1 && equal false v e.2) || holdsEntry as e
termination_by structural a => a

def eachFieldOf : List (String × Value) → List (String × Value) → Bool
  | [], _ => true
  | (n, v) :: as, bs =>
    (match Fields.get? n bs with
      | some w => equal true v w
      | none => false) && eachFieldOf as bs
termination_by structural a => a

/-- Whether the first field of `as` under the name of `f` has its value. -/
def hasField : List (String × Value) → String × Value → Bool
  | [], _ => false
  | (n, v) :: as, f => if n = f.1 then equal false v f.2 else hasField as f
termination_by structural a => a

end

instance : BEq Value := ⟨equal false⟩

end Value

end SchemaWire
