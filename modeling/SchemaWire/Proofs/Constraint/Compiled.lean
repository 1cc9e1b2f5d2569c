import SchemaWire.Constraint.Compile
import SchemaWire.Proofs.Constraint.Literal
import SchemaWire.Proofs.Stateful

/-!
Compiled constraints. A constraint that was compiled for a field is named after the field, its rule
is that of a table entry that applies to the type of the field, the literals that it compares with
are values of the type's kind, and a bound on a length stands at a type with a length prefix.
-/

namespace SchemaWire

open Stateful

def Rule.literals : Rule → List Literal
  | .oneOf choices => choices
  | .eq l | .neq l | .min l | .max l => [l]
  | _ => []

namespace RuleKind

variable {kind : RuleKind} {type : Schema} {raw : List Char} {rule : Rule}

theorem name_of_rule (h : kind.rule type raw = .ok rule) : rule.name = kind.name := by
  cases kind <;> simp only [RuleKind.rule, except_bind_eq_ok, pure, Except.pure] at h <;>
    grind [Rule.name, RuleKind.name]

theorem kind_of_boundsLength (h : kind.rule type raw = .ok rule)
    (hbounds : rule.boundsLength = true) : kind = .minLen ∨ kind = .maxLen := by
  cases kind <;> simp only [RuleKind.rule, except_bind_eq_ok, pure, Except.pure] at h <;>
    grind [Rule.boundsLength]

/-- The literal is a value of the kind that the type holds, itself or as an optional. -/
def Suits (type : Schema) (l : Literal) : Prop :=
  ∃ scalar, type.inner.scalarKind? = some scalar ∧ l.OfKind scalar

theorem suits_of_literal {l : Literal} (h : kind.literal type raw = .ok l) : Suits type l := by
  unfold literal at h
  split at h
  · cases h
  · next scalar hscalar =>
    split at h
    · next l' hparse =>
      cases h
      exact ⟨scalar, hscalar, Literal.ofKind_of_parse? hparse⟩
    · cases h

theorem suits_of_rule (h : kind.rule type raw = .ok rule) : ∀ l ∈ rule.literals, Suits type l := by
  have hone : ∀ {make : Literal → Rule}, (∀ l, (make l).literals = [l]) →
      (do return make (← kind.literal type raw)) = Except.ok (ε := ConstraintError) rule →
      ∀ l ∈ rule.literals, Suits type l := by
    intro make hmake h
    obtain ⟨l, hl, h⟩ := except_bind_eq_ok.mp h
    cases h
    rw [hmake]
    exact List.forall_mem_singleton.mpr (suits_of_literal hl)
  cases kind with
  | oneOf =>
      obtain ⟨choices, hchoices, h⟩ := except_bind_eq_ok.mp h
      cases h
      intro l hl
      obtain ⟨word, -, hword⟩ := forall_of_mapM_eq_ok hchoices l hl
      exact suits_of_literal hword
  | eq | neq | min | max => exact hone (fun _ => rfl) h
  | minLen | maxLen =>
      obtain ⟨n, -, h⟩ := except_bind_eq_ok.mp h
      cases h
      nofun
  | shape | contains | startsWith | endsWith =>
      cases h
      nofun

theorem isPrefixed_of_appliesTo (h : minLen.appliesTo type = true) :
    type.inner.isPrefixed = true := by
  unfold appliesTo at h
  cases htype : type.inner with
  | scalar k name =>
      rw [htype] at h
      cases k with
      | string => rfl
      | bool | num => cases h
  | sequence | bytes | map => rfl
  | optional | array | record =>
      rw [htype] at h
      cases h

end RuleKind

namespace Constraint

variable {name field : String} {given : Option String} {type : Schema} {k : Constraint}

theorem compile_eq_ok (h : compile name given field type = .ok k) :
    ∃ kind raw rule, RuleKind.named? name = some kind ∧ kind.appliesTo type = true ∧
      kind.rule type raw = .ok rule ∧ k = ⟨field, rule, type.isOptional⟩ := by
  unfold compile at h
  split at h
  · cases h
  · next kind hkind =>
    obtain ⟨raw, -, h⟩ := except_bind_eq_ok.mp h
    split at h
    · next happlies =>
      obtain ⟨rule, hrule, h⟩ := except_bind_eq_ok.mp h
      cases h
      exact ⟨kind, raw, rule, hkind, happlies, hrule, rfl⟩
    · cases h

theorem appliesTo_of_compile (h : compile name given field type = .ok k)
    (hbounds : k.boundsLength = true) : RuleKind.minLen.appliesTo type = true := by
  obtain ⟨kind, raw, rule, -, happlies, hrule, rfl⟩ := compile_eq_ok h
  rcases RuleKind.kind_of_boundsLength hrule hbounds with rfl | rfl
  · exact happlies
  · exact happlies

/-- The constraint can stand at a field of this name and type. -/
structure Fits (k : Constraint) (field : String) (type : Schema) : Prop where
  field : k.field = field
  optional : k.optional = type.isOptional
  applies : ∃ kind, RuleKind.named? k.rule.name = some kind ∧ kind.appliesTo type = true
  literals : ∀ l ∈ k.rule.literals, RuleKind.Suits type l
  prefixed : k.boundsLength = true → type.inner.isPrefixed = true

theorem fits_of_compile (h : compile name given field type = .ok k) : k.Fits field type := by
  have hprefixed := fun hbounds => RuleKind.isPrefixed_of_appliesTo (appliesTo_of_compile h hbounds)
  obtain ⟨kind, raw, rule, hkind, happlies, hrule, rfl⟩ := compile_eq_ok h
  have hname : kind.name = name := by
    have hfound := List.find?_some hkind
    simpa using hfound
  have hentry : RuleKind.named? rule.name = some kind := by
    rw [RuleKind.name_of_rule hrule, hname, hkind]
  exact
    { field := rfl
      optional := rfl
      applies := ⟨kind, hentry, happlies⟩
      literals := RuleKind.suits_of_rule hrule
      prefixed := hprefixed }

end Constraint

end SchemaWire
