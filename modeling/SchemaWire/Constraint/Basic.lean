import SchemaWire.Constraint.Literal
import SchemaWire.Shape.Basic

/-!
Constraints: rules that the value of one field has to meet. Bounds on a length are checked against
the length prefix before the value is read; every other rule is checked on the value itself.
-/

namespace SchemaWire

inductive Rule where
  | shape (shape : TextShape)
  | contains (part : String)
  | startsWith (part : String)
  | endsWith (part : String)
  | oneOf (choices : List Literal)
  | eq (literal : Literal)
  | neq (literal : Literal)
  | min (literal : Literal)
  | max (literal : Literal)
  | minLen (length : Nat)
  | maxLen (length : Nat)
  deriving Repr, DecidableEq

namespace Rule

def boundsLength : Rule → Bool
  | .minLen _ | .maxLen _ => true
  | _ => false

def name : Rule → String
  | .shape s => s.name
  | .contains _ => "contains"
  | .startsWith _ => "startswith"
  | .endsWith _ => "endswith"
  | .oneOf _ => "oneof"
  | .eq _ => "eq"
  | .neq _ => "neq"
  | .min _ => "min"
  | .max _ => "max"
  | .minLen _ => "minlen"
  | .maxLen _ => "maxlen"

def failure : Rule → String
  | .shape s => s.failure
  | .contains part => "does not contain '" ++ part ++ "'"
  | .startsWith part => "does not start with '" ++ part ++ "'"
  | .endsWith part => "does not end with '" ++ part ++ "'"
  | .oneOf choices =>
    "should have one of these values: " ++ ", ".intercalate (choices.map Literal.quoted)
  | .eq l => "does not equal " ++ l.toText
  | .neq l => "should not be equal to " ++ l.toText
  | .min l => "has a minimum value of " ++ l.toText
  | .max l => "has a maximum value of " ++ l.toText
  | .minLen n => "has a minimum length of " ++ toString n
  | .maxLen n => "has a maximum length of " ++ toString n

/-- Whether a length is within the bound; rules that bound no length admit every one. -/
def admitsLength (n : Nat) : Rule → Bool
  | .minLen least => least ≤ n
  | .maxLen most => n ≤ most
  | _ => true

end Rule

structure Constraint where
  field : String
  rule : Rule
  /-- the field is optional, and the rule is about its contents -/
  optional : Bool
  deriving Repr, DecidableEq

namespace Constraint

def boundsLength (c : Constraint) : Bool := c.rule.boundsLength

def description (c : Constraint) : String := "field '" ++ c.field ++ "' " ++ c.rule.failure

end Constraint

end SchemaWire
