import SchemaWire.Proofs.Constraint.Compiled
import SchemaWire.Proofs.Schema.Records

/-!
Schemas without their display names. Names label schemas and show in messages; to which constraints
a type can be attached, and what these are compiled to, is decided by the rest. A byte string is at
most told apart from the sequence of bytes that it abbreviates: the same constraints fit both.
-/

namespace SchemaWire

namespace Schema

mutual

/-- The schema without display names, at whatever depth. If `spelled`, byte strings are spelled out
as sequences of bytes. -/
def anonymous (spelled : Bool) : Schema → Schema
  | scalar kind _ => scalar kind none
  | optional elem => optional (anonymous spelled elem)
  | array n elem _ => array n (anonymous spelled elem) none
  | sequence elem _ => sequence (anonymous spelled elem) none
  | map key val _ => map (anonymous spelled key) (anonymous spelled val) none
  | bytes _ => if spelled then sequence (scalar (.num .uint8) none) none else bytes none
  | record _ fields => record none (anonymousFields spelled fields)

def anonymousFields (spelled : Bool) : List (Field Schema) → List (Field Schema)
  | [] => []
  | ⟨name, type, skip, constraints⟩ :: fields =>
    ⟨name, anonymous spelled type, skip, constraints⟩ :: anonymousFields spelled fields

end

variable {spelled : Bool}

@[simp] theorem anonymousFields_append (front fields : FieldList) :
    anonymousFields spelled (front ++ fields) =
      anonymousFields spelled front ++ anonymousFields spelled fields := by
  induction front with
  | nil => rfl
  | cons f front ih => rw [List.cons_append, anonymousFields, anonymousFields, ih, List.cons_append]

@[simp] theorem any_anonymousFields (fields : FieldList) (name : String) :
    ((anonymousFields spelled fields).any fun f => f.name = name) =
      fields.any fun f => f.name = name := by
  induction fields with
  | nil => rfl
  | cons f fields ih => rw [anonymousFields, List.any_cons, List.any_cons, ih]

@[simp] theorem anonymous_withName (schema : Schema) (name : String) :
    (schema.withName name).anonymous spelled = schema.anonymous spelled := by
  cases schema <;> rfl

@[simp] theorem inner_anonymous (schema : Schema) :
    (schema.anonymous spelled).inner = schema.inner.anonymous spelled := by
  cases schema with
  | bytes => cases spelled <;> rfl
  | _ => rfl

@[simp] theorem isOptional_anonymous (schema : Schema) :
    (schema.anonymous spelled).isOptional = schema.isOptional := by
  cases schema with
  | bytes => cases spelled <;> rfl
  | _ => rfl

@[simp] theorem scalarKind?_anonymous (schema : Schema) :
    (schema.anonymous spelled).scalarKind? = schema.scalarKind? := by
  cases schema with
  | bytes => cases spelled <;> rfl
  | _ => rfl

theorem appliesTo_anonymous (kind : RuleKind) (schema : Schema) :
    kind.appliesTo (schema.anonymous spelled) = kind.appliesTo schema := by
  rw [RuleKind.appliesTo, RuleKind.appliesTo, inner_anonymous]
  cases kind with
  | minLen | maxLen =>
      cases schema.inner with
      | bytes => cases spelled <;> rfl
      | _ => rfl
  | _ => simp only [RuleKind.appliesToInner, scalarKind?_anonymous]

/-- The schemas differ in display names only, apart from byte strings if these are spelled. -/
def SameShape (spelled : Bool) (schema other : Schema) : Prop :=
  schema.anonymous spelled = other.anonymous spelled

namespace SameShape

variable {schema other : Schema}

theorem symm (h : SameShape spelled schema other) : SameShape spelled other schema := Eq.symm h

theorem isOptional_eq (h : SameShape spelled schema other) :
    schema.isOptional = other.isOptional := by
  rw [← @isOptional_anonymous spelled schema, h, isOptional_anonymous]

theorem scalarKind?_inner_eq (h : SameShape spelled schema other) :
    schema.inner.scalarKind? = other.inner.scalarKind? := by
  rw [← @scalarKind?_anonymous spelled schema.inner, ← inner_anonymous, h, inner_anonymous,
    scalarKind?_anonymous]

theorem appliesTo_eq (h : SameShape spelled schema other) (kind : RuleKind) :
    kind.appliesTo schema = kind.appliesTo other := by
  rw [← @appliesTo_anonymous spelled, h, appliesTo_anonymous]

end SameShape

end Schema

/-! ### Constraints -/

open Stateful

namespace RuleKind

variable {kind : RuleKind} {type other : Schema} {raw : List Char}

theorem literal_of_scalarKind? (hkind : type.inner.scalarKind? = other.inner.scalarKind?)
    {l : Literal} (h : kind.literal type raw = .ok l) : kind.literal other raw = .ok l := by
  unfold literal at h ⊢
  rw [← hkind]
  split at h
  · cases h
  · exact h

theorem rule_of_scalarKind? (hkind : type.inner.scalarKind? = other.inner.scalarKind?) {rule : Rule}
    (h : kind.rule type raw = .ok rule) : kind.rule other raw = .ok rule := by
  have hone : ∀ {make : Literal → Rule},
      (do return make (← kind.literal type raw)) = Except.ok (ε := ConstraintError) rule →
      (do return make (← kind.literal other raw)) = Except.ok (ε := ConstraintError) rule := by
    intro make h
    obtain ⟨l, hl, h⟩ := except_bind_eq_ok.mp h
    exact except_bind_eq_ok.mpr ⟨l, literal_of_scalarKind? hkind hl, h⟩
  cases kind with
  | oneOf =>
      obtain ⟨choices, hchoices, h⟩ := except_bind_eq_ok.mp h
      have hchoices := mapM_eq_ok_mono hchoices (literal_of_scalarKind? hkind)
      exact except_bind_eq_ok.mpr ⟨choices, hchoices, h⟩
  | eq | neq | min | max => exact hone h
  | _ => exact h

end RuleKind

/-- What is compiled for a type does not depend on its display names. -/
theorem Constraint.compile_of_sameShape {spelled : Bool} {type other : Schema}
    (hshape : type.SameShape spelled other) {name field : String} {given : Option String}
    {k : Constraint} (h : compile name given field type = .ok k) :
    compile name given field other = .ok k := by
  unfold compile at h ⊢
  split at h
  · cases h
  · next kind hkind =>
    obtain ⟨raw, hraw, h⟩ := except_bind_eq_ok.mp h
    refine except_bind_eq_ok.mpr ⟨raw, hraw, ?_⟩
    rw [← hshape.appliesTo_eq, ← hshape.isOptional_eq]
    split at h
    · next happlies =>
      obtain ⟨rule, hrule, h⟩ := except_bind_eq_ok.mp h
      rw [if_pos happlies]
      have hrule := RuleKind.rule_of_scalarKind? hshape.scalarKind?_inner_eq hrule
      exact except_bind_eq_ok.mpr ⟨rule, hrule, h⟩
    · cases h

end SchemaWire
