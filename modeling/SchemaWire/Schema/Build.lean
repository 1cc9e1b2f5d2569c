import SchemaWire.Constraint.Compile
import SchemaWire.Constraint.Tag
import SchemaWire.Schema.Registry

/-!
Building schemas from type expressions.

Building is layered. One layer turns an expression into a schema, given a way to expand the names
in it; expanding a name looks it up and builds the expression behind it with one layer less. The
names under expansion form a stack, and a name that is already on it contains itself. A name is
pushed only if it is registered and not on the stack, so there are never more layers than
registered names, and that many are provided.

A failure inside a field carries the fields that lead to it.
-/

namespace SchemaWire

/-! ### Failures -/

inductive SchemaError where
  /-- the type with this display name contains itself -/
  | cyclic (display : String)
  | unsupported (shape : UnsupportedShape)
  | unknown (name : String)
  | notARecord (type : String)
  | invalidMapKey (type : String)
  | duplicateField (name : String)
  | constraint (field : String) (cause : ConstraintError)
  | field (name : String) (cause : SchemaError)
  deriving Repr, DecidableEq

namespace SchemaError

def message : SchemaError → String
  | cyclic display => "type " ++ display ++ " contains itself"
  | unsupported shape => "unsupported type shape: " ++ shape.text
  | unknown name => "unknown type " ++ name
  | notARecord type => "type " ++ type ++ " is not a record"
  | invalidMapKey type => "map key type " ++ type ++ " is not a scalar"
  | duplicateField name => "duplicate field '" ++ name ++ "'"
  | constraint name cause => "field '" ++ name ++ "': " ++ cause.message
  | field name cause => "field '" ++ name ++ "': " ++ cause.message

def root : SchemaError → SchemaError
  | field _ cause => cause.root
  | e => e

/-- The fields from the outermost record down to the failure. -/
def path : SchemaError → List String
  | field name cause => name :: cause.path
  | constraint name _ => [name]
  | _ => []

end SchemaError

/-! ### Layers -/

/-- Building with the stack of names under expansion, innermost first. -/
abbrev Builder := EStateM SchemaError (List String)

namespace Builder

/-- Runs `body` with `name` on the stack, and takes it off again whether or not `body` fails. -/
def expanding {α : Type} (name : String) (body : Builder α) : Builder α := fun stack =>
  match body (name :: stack) with
  | .ok a stack => .ok a stack.tail
  | .error e stack => .error e stack.tail

/-- Runs `body` and reports its failure as one inside the field `name`. -/
def inField {α : Type} (name : String) (body : Builder α) : Builder α := fun stack =>
  match body stack with
  | .ok a stack => .ok a stack
  | .error e stack => .error (.field name e) stack

def attempt {α : Type} (body : Builder α) : Builder (Option α) := fun stack =>
  match body stack with
  | .ok a stack => .ok (some a) stack
  | .error _ stack => .ok none stack

def constraints {α : Type} (name : String) (result : Except ConstraintError α) : Builder α :=
  match result with
  | .ok a => pure a
  | .error e => throw (.constraint name e)

mutual

/-- The schema of an expression, given a way to expand names. -/
def layer (expand : String → Builder Schema) : TypeExpr → Builder Schema
  | .named name => expand name
  | .scalar kind => pure (.scalar kind none)
  | .pointer elem => do return .optional (← layer expand elem)
  | .array n elem => do return .array n (← layer expand elem) none
  | .slice elem => do
    if elem.isByte then return .bytes none
    else return .sequence (← layer expand elem) none
  | .map key value => do
    let key ← layer expand key
    if key.inner.scalarKind?.isSome then
      return .map key (← layer expand value) none
    else
      throw (.invalidMapKey key.text)
  | .struct fields => do return .record none (← layerFields expand [] fields)
  | .unsupported shape => throw (.unsupported shape)

/-- The fields of a record after those of `front`, which may not be declared again. A skipped field
without a schema is dropped. -/
def layerFields (expand : String → Builder Schema) (front : FieldList) :
    List (FieldDecl TypeExpr) → Builder FieldList
  | [] => pure front
  | ⟨name, type, tag⟩ :: decls =>
    if front.any fun f => f.name = name then throw (.duplicateField name)
    else do
      let tag ← constraints name (Tag.parse tag)
      if tag.skip then do
        let kept ← attempt (layer expand type)
        layerFields expand (front ++ kept.toList.map fun schema => ⟨name, schema, true, []⟩) decls
      else do
        let schema ← inField name (layer expand type)
        let compiled ← constraints name
          (tag.declarations.mapM fun d => Constraint.compile d.name d.argument name schema)
        layerFields expand (front ++ [⟨name, schema, false, compiled⟩]) decls

end

/-- What a name stands for, unless the name is under expansion already. -/
def resolve (reg : Registry) (name : String) : Builder NamedType := fun stack =>
  match reg.resolve? name with
  | none => .error (.unknown name) stack
  | some named =>
    if stack.contains name then .error (.cyclic named.display) stack else .ok named stack

/-- The schema of a name, with at most `layers` names under expansion besides those on the
stack. -/
def expand (reg : Registry) : Nat → String → Builder Schema
  | 0, name => do throw (.cyclic (← resolve reg name).display)
  | layers + 1, name => do
    let named ← resolve reg name
    let schema ← expanding name (layer (expand reg layers) named.underlying)
    return schema.withName named.display

end Builder

namespace Schema

/-- The outcome of a builder that starts with no name under expansion. -/
def ofBuilder {α : Type} (build : Builder α) : Except SchemaError α :=
  match build [] with
  | .ok a _ => .ok a
  | .error e _ => .error e

def build (reg : Registry) (type : TypeExpr) : Except SchemaError Schema :=
  ofBuilder (Builder.layer (Builder.expand reg reg.size) type)

def buildNamed (reg : Registry) (name : String) : Except SchemaError Schema :=
  ofBuilder (Builder.expand reg reg.size name)

end Schema

end SchemaWire
