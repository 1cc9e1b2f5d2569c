import SchemaWire.Constraint.Compile
import SchemaWire.Proofs.Schema.Records

/-!
Schemas without their skipped fields. What travels is decided by the rest, and so are the text of a
schema and the constraints that can be attached to it.
-/

namespace SchemaWire.Schema

mutual

def wire : Schema → Schema
  | scalar kind name => scalar kind name
  | optional elem => optional (wire elem)
  | array n elem name => array n (wire elem) name
  | sequence elem name => sequence (wire elem) name
  | map key val name => map (wire key) (wire val) name
  | bytes name => bytes name
  | record name fields => record name (wireFields fields)

def wireFields : List (Field Schema) → List (Field Schema)
  | [] => []
  | ⟨name, type, skip, constraints⟩ :: fields =>
    if skip then wireFields fields
    else ⟨name, wire type, false, constraints⟩ :: wireFields fields

end

@[simp] theorem wireFields_append (front fields : FieldList) :
    wireFields (front ++ fields) = wireFields front ++ wireFields fields := by
  induction front with
  | nil => rfl
  | cons f front ih =>
      rw [List.cons_append, wireFields, wireFields, ih]
      split <;> rfl

theorem wireFields_of_skip {fields : FieldList} (h : ∀ f ∈ fields, f.skip = true) :
    wireFields fields = [] := by
  induction fields with
  | nil => rfl
  | cons f fields ih =>
      rw [wireFields, if_pos (h f List.mem_cons_self)]
      exact ih fun g hg => h g (List.mem_cons_of_mem f hg)

theorem wire_withName (schema : Schema) (name : String) :
    (schema.withName name).wire = schema.wire.withName name := by
  cases schema <;> rfl

theorem text_wire (schema : Schema) : schema.wire.text = schema.text := by
  induction schema with
  | scalar | bytes => rfl
  | optional elem ih | array n elem name ih | sequence elem name ih => simp only [wire, text, ih]
  | map key val name ihkey ihval => simp only [wire, text, ihkey, ihval]
  | record name fields ih =>
      have htexts : fieldTexts (wireFields fields) = fieldTexts fields := by
        induction fields with
        | nil => rfl
        | cons f fields ihfields =>
            have hrest := ihfields fun g hg => ih g (List.mem_cons_of_mem f hg)
            rw [wireFields, fieldTexts]
            split
            · exact hrest
            · rw [fieldTexts, if_neg Bool.false_ne_true, ih f List.mem_cons_self, hrest]
      simp only [wire, text, htexts]

@[simp] theorem inner_wire (schema : Schema) : schema.wire.inner = schema.inner.wire := by
  cases schema <;> rfl

@[simp] theorem isOptional_wire (schema : Schema) : schema.wire.isOptional = schema.isOptional := by
  cases schema <;> rfl

@[simp] theorem scalarKind?_wire (schema : Schema) :
    schema.wire.scalarKind? = schema.scalarKind? := by
  cases schema <;> rfl

theorem appliesTo_wire (kind : RuleKind) (schema : Schema) :
    kind.appliesTo schema.wire = kind.appliesTo schema := by
  rw [RuleKind.appliesTo, RuleKind.appliesTo, inner_wire]
  cases kind with
  | minLen | maxLen => cases schema.inner <;> rfl
  | _ => simp only [RuleKind.appliesToInner, scalarKind?_wire]

theorem rule_wire (kind : RuleKind) (schema : Schema) (raw : List Char) :
    kind.rule schema.wire raw = kind.rule schema raw := by
  have hliteral : kind.literal schema.wire = kind.literal schema := by
    funext word
    simp only [RuleKind.literal, inner_wire, scalarKind?_wire, text_wire]
  cases kind <;> simp only [RuleKind.rule, hliteral]

theorem compile_wire (name : String) (given : Option String) (field : String) (schema : Schema) :
    Constraint.compile name given field schema.wire =
      Constraint.compile name given field schema := by
  simp only [Constraint.compile, appliesTo_wire, rule_wire, isOptional_wire, text_wire]

/-- The schemas differ in skipped fields only. -/
def SameWire (schema other : Schema) : Prop := schema.wire = other.wire

namespace SameWire

variable {schema other : Schema}

theorem text_eq (h : SameWire schema other) : schema.text = other.text := by
  rw [← text_wire schema, h, text_wire other]

theorem scalarKind?_inner_eq (h : SameWire schema other) :
    schema.inner.scalarKind? = other.inner.scalarKind? := by
  rw [← scalarKind?_wire, ← inner_wire, h, inner_wire, scalarKind?_wire]

theorem compile_eq (h : SameWire schema other) (name : String) (given : Option String)
    (field : String) :
    Constraint.compile name given field schema = Constraint.compile name given field other := by
  rw [← compile_wire, h, compile_wire]

theorem withName (h : SameWire schema other) (name : String) :
    SameWire (schema.withName name) (other.withName name) := by
  rw [SameWire, wire_withName, h, wire_withName]

end SameWire

end SchemaWire.Schema
