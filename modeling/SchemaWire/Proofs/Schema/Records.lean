import SchemaWire.Schema.Basic

/-!
Schemas taken apart: induction over them, properties that every record of a schema has, and the
schema without its constraints.
-/

namespace SchemaWire.Schema

/-- Induction over schemas. For a record the property is known of the type of every field. -/
@[elab_as_elim, induction_eliminator]
theorem induct {motive : Schema → Prop}
    (scalar : ∀ kind name, motive (.scalar kind name))
    (optional : ∀ elem, motive elem → motive (.optional elem))
    (array : ∀ length elem name, motive elem → motive (.array length elem name))
    (sequence : ∀ elem name, motive elem → motive (.sequence elem name))
    (map : ∀ key val name, motive key → motive val → motive (.map key val name))
    (bytes : ∀ name, motive (.bytes name))
    (record : ∀ name (fields : FieldList), (∀ f ∈ fields, motive f.type) →
      motive (.record name fields))
    (schema : Schema) : motive schema :=
  Schema.rec (motive_2 := fun fields => ∀ f ∈ fields, motive f.type)
    (motive_3 := fun f => motive f.type)
    scalar optional array sequence map bytes record
    (fun _ h => by cases h)
    (fun _ _ hhead htail f hf => by
      rcases List.mem_cons.mp hf with rfl | hf
      · exact hhead
      · exact htail f hf)
    (fun _ _ _ _ htype => htype) schema

/-! ### Properties of every record -/

mutual

/-- Whether `P` holds of the fields of every record in a schema, at whatever depth. -/
def EachRecord (P : FieldList → Prop) : Schema → Prop
  | scalar .. | bytes _ => True
  | optional elem | array _ elem _ | sequence elem _ => EachRecord P elem
  | map key val _ => EachRecord P key ∧ EachRecord P val
  | record _ fields => P fields ∧ EachField P fields

def EachField (P : FieldList → Prop) : List (Field Schema) → Prop
  | [] => True
  | ⟨_, type, _, _⟩ :: fields => EachRecord P type ∧ EachField P fields

end

theorem eachField_iff {P : FieldList → Prop} {fields : FieldList} :
    EachField P fields ↔ ∀ f ∈ fields, EachRecord P f.type := by
  induction fields with
  | nil => simp [EachField]
  | cons f fields ih => simp [EachField, ih]

theorem EachRecord.mono {P Q : FieldList → Prop} (hPQ : ∀ fields, P fields → Q fields)
    {schema : Schema} (h : schema.EachRecord P) : schema.EachRecord Q := by
  induction schema with
  | scalar | bytes => trivial
  | optional elem ih => exact ih h
  | array _ elem _ ih => exact ih h
  | sequence elem _ ih => exact ih h
  | map key val _ ihkey ihval => exact ⟨ihkey h.1, ihval h.2⟩
  | record _ fields ih =>
      refine ⟨hPQ fields h.1, eachField_iff.mpr fun f hf => ?_⟩
      exact ih f hf (eachField_iff.mp h.2 f hf)

def DistinctNames : Schema → Prop := EachRecord fun fields => (fields.map (·.name)).Nodup

/-! ### Parts -/

mutual

/-- The schema and all schemas inside it, at whatever depth; those of skipped fields count too. -/
def parts : Schema → List Schema
  | scalar kind name => [scalar kind name]
  | optional elem => optional elem :: parts elem
  | array n elem name => array n elem name :: parts elem
  | sequence elem name => sequence elem name :: parts elem
  | map key val name => map key val name :: (parts key ++ parts val)
  | bytes name => [bytes name]
  | record name fields => record name fields :: fieldParts fields

def fieldParts : List (Field Schema) → List Schema
  | [] => []
  | ⟨_, type, _, _⟩ :: fields => parts type ++ fieldParts fields

end

theorem mem_fieldParts {part : Schema} {fields : FieldList} :
    part ∈ fieldParts fields ↔ ∃ f ∈ fields, part ∈ f.type.parts := by
  induction fields with
  | nil => simp [fieldParts]
  | cons f fields ih => simp [fieldParts, ih]

theorem forall_parts_withName {P : Schema → Prop} (hP : ∀ {s name}, P s → P (s.withName name))
    {schema : Schema} (name : String) (h : ∀ part ∈ schema.parts, P part) :
    ∀ part ∈ (schema.withName name).parts, P part := by
  cases schema with
  | optional elem => exact h
  | _ =>
      rw [parts, List.forall_mem_cons] at h
      exact List.forall_mem_cons.mpr ⟨hP h.1, h.2⟩

/-! ### Zero values -/

theorem zeroFields_eq_map (fields : FieldList) :
    zeroFields fields = fields.map fun f => (f.name, f.type.zero) := by
  induction fields with
  | nil => rfl
  | cons f fields ih => rw [zeroFields, List.map_cons, ih]

/-! ### Schemas without constraints -/

mutual

def strip : Schema → Schema
  | scalar kind name => scalar kind name
  | optional elem => optional (strip elem)
  | array n elem name => array n (strip elem) name
  | sequence elem name => sequence (strip elem) name
  | map key val name => map (strip key) (strip val) name
  | bytes name => bytes name
  | record name fields => record name (stripFields fields)

def stripFields : List (Field Schema) → List (Field Schema)
  | [] => []
  | ⟨name, type, skip, _⟩ :: fields => ⟨name, strip type, skip, []⟩ :: stripFields fields

end

@[simp] theorem map_name_stripFields (fields : FieldList) :
    (stripFields fields).map (·.name) = fields.map (·.name) := by
  induction fields with
  | nil => rfl
  | cons f fields ih => rw [stripFields, List.map_cons, List.map_cons, ih]

theorem exists_of_mem_stripFields {fields : FieldList} {f : Field Schema}
    (h : f ∈ stripFields fields) : ∃ g ∈ fields, f = ⟨g.name, strip g.type, g.skip, []⟩ := by
  induction fields with
  | nil => cases h
  | cons g fields ih =>
      rcases List.mem_cons.mp h with rfl | h
      · exact ⟨g, List.mem_cons_self, rfl⟩
      · obtain ⟨x, hx, hf⟩ := ih h
        exact ⟨x, List.mem_cons_of_mem g hx, hf⟩

@[simp] theorem isPrefixed_strip (schema : Schema) :
    schema.strip.isPrefixed = schema.isPrefixed := by
  cases schema with
  | scalar kind name => rfl
  | _ => simp [strip, isPrefixed]

theorem zero_strip (schema : Schema) : schema.strip.zero = schema.zero := by
  induction schema with
  | scalar | bytes => rfl
  | optional | sequence | map => simp only [strip, zero]
  | array n elem name ih => simp only [strip, zero, ih]
  | record name fields ih =>
      have hfields : zeroFields (stripFields fields) = zeroFields fields := by
        induction fields with
        | nil => rfl
        | cons f fields ihfields =>
            simp only [stripFields, zeroFields, ih f List.mem_cons_self,
              ihfields fun g hg => ih g (List.mem_cons_of_mem f hg)]
      simp only [strip, zero, hfields]

end SchemaWire.Schema
