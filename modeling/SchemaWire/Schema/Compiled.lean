import SchemaWire.Schema.Build

/-!
Compiled records: the schema of a registered record together with what source emitted for it needs
besides the runtime, which are the patterns of its text shapes and the packages behind its checks.
-/

namespace SchemaWire

namespace Schema

mutual

/-- The text shapes required by constraints on fields that travel, at any depth. -/
def shapes : Schema → List TextShape
  | scalar .. | bytes _ => []
  | optional elem | array _ elem _ | sequence elem _ => shapes elem
  | map key val _ => shapes key ++ shapes val
  | record _ fields => fieldShapes fields

def fieldShapes : List (Field Schema) → List TextShape
  | [] => []
  | ⟨_, type, skip, constraints⟩ :: fields =>
    if skip then fieldShapes fields
    else
      constraints.filterMap (fun c => match c.rule with | .shape s => some s | _ => none) ++
        shapes type ++ fieldShapes fields

end

end Schema

structure CompiledRecord where
  /-- the name that the record was compiled from -/
  name : String
  /-- the display name of the record, if it has one -/
  display : Option String
  fields : FieldList
  /-- the shapes that are checked by a pattern, in the order of the table of shapes -/
  patterns : List TextShape
  /-- the packages that the checks depend on, sorted by name -/
  dependencies : List String
  deriving Repr

namespace CompiledRecord

def schema (record : CompiledRecord) : Schema := .record record.display record.fields

/-- The shapes of a list that are checked by a pattern, each once. -/
def patternsOf (shapes : List TextShape) : List TextShape :=
  TextShape.all.filter fun s => shapes.contains s && s.pattern?.isSome

def dependenciesOf (shapes : List TextShape) : List String :=
  (if (patternsOf shapes).isEmpty then [] else ["lazy_static", "regex"]) ++
    if shapes.contains .url then ["url"] else []

def compile (reg : Registry) (name : String) : Except SchemaError CompiledRecord := do
  match ← Schema.buildNamed reg name with
  | .record display fields =>
    let shapes := Schema.fieldShapes fields
    return ⟨name, display, fields, patternsOf shapes, dependenciesOf shapes⟩
  | schema => throw (.notARecord schema.text)

end CompiledRecord

end SchemaWire
