import SchemaWire.Constraint.Table
import SchemaWire.Text.Split

/-!
Compiling a declared constraint against the type of its field: the name is looked up, the argument
has to be there exactly if the entry takes one, the entry has to apply to the type, and the
argument has to denote values of the type's kind or a length. The first of these that fails is
reported.
-/

namespace SchemaWire

namespace RuleKind

/-- The argument of an entry, trimmed; empty if it takes none. -/
def argument (kind : RuleKind) (given : Option String) : Except ConstraintError (List Char) :=
  match kind.takesArgument, given.map fun s => Text.trim s.toList with
  | true, none => .error (.missingArgument kind.name)
  | true, some [] => .error (.missingArgument kind.name)
  | true, some cs => .ok cs
  | false, none => .ok []
  | false, some _ => .error (.unexpectedArgument kind.name)

/-- The literal that an argument denotes, as a value of the kind of `type`. -/
def literal (kind : RuleKind) (type : Schema) (raw : List Char) :
    Except ConstraintError Literal :=
  match type.inner.scalarKind? with
  | none => .error (.incompatible kind.name type.text)
  | some scalar =>
    match Literal.parse? scalar (String.ofList raw) with
    | some l => .ok l
    | none => .error (.invalidLiteral kind.name (String.ofList raw) scalar)

def length (kind : RuleKind) (raw : List Char) : Except ConstraintError Nat :=
  match (Text.natural? raw).filter (Literal.fitsUnsigned 64) with
  | some n => .ok n
  | none => .error (.invalidLength kind.name (String.ofList raw))

/-- The rule of an entry whose argument is known. -/
def rule (kind : RuleKind) (type : Schema) (raw : List Char) : Except ConstraintError Rule :=
  match kind with
  | .shape s => .ok (.shape s)
  | .contains => .ok (.contains (String.ofList raw))
  | .startsWith => .ok (.startsWith (String.ofList raw))
  | .endsWith => .ok (.endsWith (String.ofList raw))
  | .oneOf => do return .oneOf (← (Text.words raw).mapM (literal kind type))
  | .eq => do return .eq (← literal kind type raw)
  | .neq => do return .neq (← literal kind type raw)
  | .min => do return .min (← literal kind type raw)
  | .max => do return .max (← literal kind type raw)
  | .minLen => do return .minLen (← length kind raw)
  | .maxLen => do return .maxLen (← length kind raw)

end RuleKind

/-- The constraint `name` with the raw argument `given`, for a field of the type `type`. -/
def Constraint.compile (name : String) (given : Option String) (field : String) (type : Schema) :
    Except ConstraintError Constraint :=
  match RuleKind.named? name with
  | none => .error (.unknown name)
  | some kind => do
    let raw ← kind.argument given
    if kind.appliesTo type then
      return ⟨field, ← kind.rule type raw, type.isOptional⟩
    else
      throw (.incompatible name type.text)

end SchemaWire
