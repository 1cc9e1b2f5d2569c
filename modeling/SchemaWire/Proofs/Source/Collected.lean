import SchemaWire.Proofs.Source.Entered
import SchemaWire.Schema.Compiled

/-!
Which records source is emitted for, and which shapes their fields require. Besides the record
itself these are records inside it. What is required of their fields is required of fields of the
record that travel, unless a skipped field hides one of them.
-/

namespace SchemaWire

/-! ### Required shapes -/

def Rule.shapes : Rule → List TextShape
  | .shape s => [s]
  | _ => []

def Field.shapes (f : Field Schema) : List TextShape :=
  if f.skip then [] else f.constraints.flatMap (·.rule.shapes)

theorem Rule.mem_shapes {shape : TextShape} {rule : Rule} :
    shape ∈ rule.shapes ↔ rule = .shape shape := by
  cases rule <;> simp [shapes, eq_comm]

namespace Schema

theorem mem_fieldShapes {shape : TextShape} {fields : FieldList} :
    shape ∈ fieldShapes fields ↔
      ∃ f ∈ fields, shape ∈ f.shapes ∨ f.skip = false ∧ shape ∈ f.type.shapes := by
  induction fields with
  | nil => simp [fieldShapes]
  | cons f fields ih =>
      obtain ⟨name, type, skip, constraints⟩ := f
      simp only [List.mem_cons, or_and_right, exists_or, exists_eq_left, ← ih, fieldShapes]
      cases skip with
      | true => simp [Field.shapes]
      | false =>
          simp only [Field.shapes, Bool.false_eq_true, if_false, true_and, List.mem_append,
            List.mem_filterMap, List.mem_flatMap, Rule.mem_shapes, or_assoc]
          refine or_congr_left (exists_congr fun c => and_congr_right fun _ => ?_)
          cases c.rule <;> simp

def HidesNone (fields : FieldList) : Prop :=
  ∀ f ∈ fields, f.skip = true → ∀ name inner, .record name inner ∉ f.type.parts

/-- If no record is hidden, what a record inside the schema requires is required by the schema. -/
theorem shapes_of_mem_parts {schema : Schema} (h : schema.EachRecord HidesNone)
    {name : Option String} {fields : FieldList} (hpart : .record name fields ∈ schema.parts)
    {shape : TextShape} (hshape : shape ∈ fieldShapes fields) : shape ∈ schema.shapes := by
  induction schema with
  | scalar | bytes => simp [parts] at hpart
  | optional elem ih | array n elem _ ih | sequence elem _ ih =>
      exact ih h (by simpa [parts] using hpart)
  | map key val _ ihkey ihval =>
      have hpart : .record name fields ∈ key.parts ∨ .record name fields ∈ val.parts := by
        simpa [parts] using hpart
      rw [shapes, List.mem_append]
      exact hpart.imp (ihkey h.1) (ihval h.2)
  | record outer all ih =>
      rw [shapes]
      rcases List.mem_cons.mp hpart with heq | hpart
      · cases heq
        exact hshape
      · obtain ⟨f, hf, hpart⟩ := mem_fieldParts.mp hpart
        have hskip : f.skip = false := by
          rw [← Bool.not_eq_true]
          exact fun hskip => h.1 f hf hskip name fields hpart
        have hinner := ih f hf (eachField_iff.mp h.2 f hf) hpart
        exact mem_fieldShapes.mpr ⟨f, hf, .inr ⟨hskip, hinner⟩⟩

end Schema

namespace Collector

theorem mem_records {name : String} {fields : FieldList} {collected : List NamedFields}
    (h : records name fields = .ok collected) : ∀ entry ∈ collected,
      entry = (name, fields) ∨ .record (some entry.1) entry.2 ∈ Schema.fieldParts fields := by
  obtain ⟨-, rfl⟩ := records_eq_ok_iff.mp h
  exact mem_parts_of_mem_enteredFrom

end Collector

end SchemaWire
