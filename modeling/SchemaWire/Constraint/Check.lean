import SchemaWire.Constraint.Basic
import SchemaWire.Shape.Basic
import SchemaWire.Text.Split
import SchemaWire.Value.Basic

/-!
Deciding constraints on values. A constraint on an optional value is about its contents, and an
absent value meets every constraint.

A bound fails only on the wrong side of it: what cannot be compared with the bound passes `min`,
`max` and `neq`, and fails `eq` and `oneof`.
-/

namespace SchemaWire

/-- How a value compares with a literal; none if they are not of one kind or have no order. -/
def Literal.order? (literal : Literal) (value : Value) : Option Ordering :=
  match value, literal with
  | .text s, .text l => some (Bytes.order (Text.utf8 s) (Text.utf8 l))
  | .flag b, .flag l => some (compare b l)
  | value, literal => do (← value.number?).compare? (← literal.number?)

namespace Rule

def acceptsText (s : String) : Rule → Bool
  | .shape form => form.accepts s
  | .contains part => Text.occursIn part.toList s.toList
  | .startsWith part => part.toList.isPrefixOf s.toList
  | .endsWith part => part.toList.isSuffixOf s.toList
  | _ => false

/-- Whether a value, not an optional one, meets the rule. -/
def acceptsValue (value : Value) : Rule → Bool
  | .oneOf choices => choices.any fun l => l.order? value = some .eq
  | .eq l => l.order? value = some .eq
  | .neq l => l.order? value ≠ some .eq
  | .min l => l.order? value ≠ some .lt
  | .max l => l.order? value ≠ some .gt
  | .minLen least => value.length?.any (least ≤ ·)
  | .maxLen most => value.length?.any (· ≤ most)
  | rule => value.text?.any rule.acceptsText

def accepts (rule : Rule) : Value → Bool
  | .absent => true
  | .present inner => rule.acceptsValue inner
  | value => rule.acceptsValue value

end Rule

def Constraint.accepts (c : Constraint) (value : Value) : Bool := c.rule.accepts value

end SchemaWire
