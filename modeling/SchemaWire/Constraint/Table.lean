import SchemaWire.Schema.Basic

/-!
The table of constraints: which names a tag may use, which of them take an argument, and to what
types each may be attached. An optional type admits what its element admits.
-/

namespace SchemaWire

/-- An entry of the table: a rule whose argument is still to be read. -/
inductive RuleKind where
  | shape (shape : TextShape)
  | contains
  | startsWith
  | endsWith
  | oneOf
  | eq
  | neq
  | min
  | max
  | minLen
  | maxLen
  deriving Repr, DecidableEq

namespace RuleKind

def all : List RuleKind :=
  TextShape.all.map .shape ++
    [.contains, .startsWith, .endsWith, .oneOf, .eq, .neq, .min, .max, .minLen, .maxLen]

def name : RuleKind → String
  | .shape s => s.name
  | .contains => "contains"
  | .startsWith => "startswith"
  | .endsWith => "endswith"
  | .oneOf => "oneof"
  | .eq => "eq"
  | .neq => "neq"
  | .min => "min"
  | .max => "max"
  | .minLen => "minlen"
  | .maxLen => "maxlen"

/-- Whether the constraint takes an argument; if so it cannot do without. -/
def takesArgument : RuleKind → Bool
  | .shape _ => false
  | _ => true

def named? (name : String) : Option RuleKind := all.find? fun k => k.name = name

def appliesToInner (type : Schema) : RuleKind → Bool
  | .shape _ | .contains | .startsWith | .endsWith => type.scalarKind? = some .string
  | .oneOf | .eq | .neq => type.scalarKind?.isSome
  | .min | .max => type.scalarKind?.any Kind.isNumeric
  | .minLen | .maxLen =>
    match type with
    | .sequence .. | .bytes _ => true
    | type => type.scalarKind? = some .string

def appliesTo (kind : RuleKind) (type : Schema) : Bool := kind.appliesToInner type.inner

end RuleKind

inductive ConstraintError where
  | unknown (name : String)
  | missingArgument (name : String)
  | unexpectedArgument (name : String)
  | incompatible (name type : String)
  | invalidLiteral (name literal : String) (kind : Kind)
  | invalidLength (name literal : String)
  deriving Repr, DecidableEq

def ConstraintError.message : ConstraintError → String
  | .unknown name => "unknown constraint '" ++ name ++ "'"
  | .missingArgument name => "constraint '" ++ name ++ "' requires an argument"
  | .unexpectedArgument name => "constraint '" ++ name ++ "' does not take an argument"
  | .incompatible name type =>
    "constraint '" ++ name ++ "' cannot be applied to a field of type " ++ type
  | .invalidLiteral name literal kind =>
    "constraint '" ++ name ++ "': '" ++ literal ++ "' is not a valid " ++ kind.name ++ " value"
  | .invalidLength name literal =>
    "constraint '" ++ name ++ "': '" ++ literal ++ "' is not a valid length"

end SchemaWire
