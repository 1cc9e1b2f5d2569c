import SchemaWire.Proofs.Source.Collected
import SchemaWire.Proofs.Source.Layout

/-!
Which shapes emitted source tests. An emitted record tests the shapes that the fields of its schema
require, as far as they travel; and what the test of a shape spells occurs in the source.
-/

namespace SchemaWire

open Stateful Token

/-! ### From constraints to tests -/

theorem Rule.shapes_of_boundsLength {rule : Rule} (h : rule.boundsLength = true) :
    rule.shapes = [] := by
  cases rule <;> first | rfl | cases h

theorem Condition.shapes_of_ofRule {field : String} {kind : Option Kind} {rule : Rule}
    {c : Condition} (h : ofRule field kind rule = .ok c) : c.shapes = rule.shapes := by
  cases rule with
  | oneOf | eq | neq | min | max =>
      obtain ⟨l, -, h⟩ := except_bind_eq_ok.mp h
      cases h
      rfl
  | _ =>
      cases h
      rfl

theorem Check.shapes_of_ofConstraint {kind : Option Kind} {k : Constraint} {c : Check}
    (h : ofConstraint kind k = .ok c) : c.condition.shapes = k.rule.shapes := by
  obtain ⟨condition, hcondition, h⟩ := except_bind_eq_ok.mp h
  cases h
  exact Condition.shapes_of_ofRule hcondition

theorem Field.flatMap_shapes_checks (f : Field Schema) :
    f.checks.flatMap (·.rule.shapes) = f.constraints.flatMap (·.rule.shapes) := by
  unfold checks
  induction f.constraints with
  | nil => rfl
  | cons k ks ih =>
      cases hbounds : k.boundsLength with
      | false => simp [hbounds, ih]
      | true =>
          have hnone : k.rule.shapes = [] := Rule.shapes_of_boundsLength hbounds
          simp [hbounds, ih, hnone]

theorem Reading.shapes_of_ofField {f : Field Schema} {r : Reading} (h : ofField f = .ok r) :
    r.shapes = f.constraints.flatMap (·.rule.shapes) := by
  obtain ⟨gates, hgates, h⟩ := except_bind_eq_ok.mp h
  obtain ⟨checks, hchecks, h⟩ := except_bind_eq_ok.mp h
  cases h
  have hgates := flatMap_of_mapM_eq_ok hgates Check.shapes_of_ofConstraint
  have hchecks := flatMap_of_mapM_eq_ok hchecks Check.shapes_of_ofConstraint
  have hnone : f.gates.flatMap (·.rule.shapes) = [] := by
    rw [List.flatMap_eq_nil_iff]
    intro k hk
    exact Rule.shapes_of_boundsLength (List.mem_filter.mp hk).2
  rw [shapes, List.flatMap_append, hgates, hchecks, hnone, f.flatMap_shapes_checks]
  rfl

theorem RecordItem.shapes_of_ofFields {name : String} {fields : FieldList} {r : RecordItem}
    (h : ofFields name fields = .ok r) : r.shapes = fields.flatMap Field.shapes := by
  obtain ⟨id, -, h⟩ := except_bind_eq_ok.mp h
  obtain ⟨heads, hheads, h⟩ := except_bind_eq_ok.mp h
  obtain ⟨items, hitems, h⟩ := except_bind_eq_ok.mp h
  cases h
  have hitem : items.flatMap FieldItem.shapes = heads.flatMap fun head => head.1.shapes := by
    refine flatMap_of_mapM_eq_ok hitems fun {head item} h => ?_
    obtain ⟨f, id, type⟩ := head
    show item.shapes = f.shapes
    cases hskip : f.skip with
    | true =>
        simp only [hskip] at h
        cases h
        simp [FieldItem.shapes, Field.shapes, hskip]
    | false =>
        simp only [hskip] at h
        obtain ⟨r, hr, h⟩ := except_bind_eq_ok.mp h
        cases h
        simp [FieldItem.shapes, Field.shapes, hskip, Reading.shapes_of_ofField hr]
  have hhead : heads.flatMap (fun head => head.1.shapes) = fields.flatMap Field.shapes := by
    refine flatMap_of_mapM_eq_ok hheads fun {f head} h => ?_
    obtain ⟨id, -, h⟩ := except_bind_eq_ok.mp h
    obtain ⟨type, -, h⟩ := except_bind_eq_ok.mp h
    cases h
    rfl
  exact hitem.trans hhead

/-! ### From tests to source -/

theorem Condition.tokens_of_mem_shapes {c : Condition} {shape : TextShape}
    (h : shape ∈ c.shapes) : c.tokens = shape.tokens := by
  cases c with
  | shape s =>
      obtain rfl := List.mem_singleton.mp h
      rfl
  | _ => cases h

section Occurs

variable {part rt : List Token}

theorem Check.occurs_tokens {c : Check} (h : Occurs part c.condition.tokens) :
    Occurs part (c.tokens rt) :=
  .later (.later (.inside h))

theorem Reading.occurs_expression {r : Reading} (type : SourceType) {c : Check}
    (hc : c ∈ r.gates) (h : Occurs part (c.tokens rt)) :
    Occurs part (r.expression rt type) := by
  have hsome : ¬ r.gates.isEmpty = true := by
    simpa using List.ne_nil_of_mem hc
  have hgate : Occurs part [sign '|', .word "len", sign '|',
      braces (r.gates.flatMap (Check.tokens rt) ++ [.word "Ok", parens [parens []]])] :=
    .later (.later (.later (.inside ((Occurs.flatMap hc h).append_right _))))
  rw [expression, if_neg hsome]
  refine .append_left _ (.inside (.commas ?_ hgate))
  exact List.mem_cons_of_mem _ List.mem_cons_self

theorem Reading.occurs_checking {r : Reading} (type : SourceType) (holder : Token) {c : Check}
    (hc : c ∈ r.checks) (h : Occurs part (c.tokens rt)) :
    Occurs part (r.checking rt type holder) := by
  have hsome : ¬ r.checks.isEmpty = true := by
    simpa using List.ne_nil_of_mem hc
  have hchecks : Occurs part (r.checks.flatMap (Check.tokens rt)) := .flatMap hc h
  simp only [checking]
  rw [if_neg hsome]
  split
  · exact .append_left _ (.later (.later (.later (.later (.inside hchecks)))))
  · exact .inside (.append_left _ hchecks)

theorem FieldItem.occurs_statements {f : FieldItem} {shape : TextShape} (hshape : shape ∈ f.shapes)
    (h : Occurs part shape.tokens) (place : Nat) : Occurs part (f.statements rt place) := by
  obtain ⟨r, hr, hshape⟩ := List.mem_flatMap.mp hshape
  obtain ⟨c, hc, hshape⟩ := List.mem_flatMap.mp hshape
  have hr : f.reading = some r := Option.mem_toList.mp hr
  have hcheck : Occurs part (c.tokens rt) := by
    refine Check.occurs_tokens ?_
    rw [Condition.tokens_of_mem_shapes hshape]
    exact h
  rw [statements, hr]
  rcases List.mem_append.mp hc with hgate | hcheck'
  · have hexpression := r.occurs_expression f.type hgate hcheck
    exact .append_right _ (.append_left _ (.later hexpression))
  · have hchecking := r.occurs_checking f.type (variableAt place) hcheck' hcheck
    exact .append_left _ (.later hchecking)

theorem RecordItem.occurs_tokens {r : RecordItem} {shape : TextShape} (hshape : shape ∈ r.shapes)
    (h : Occurs part shape.tokens) : Occurs part (r.tokens rt) := by
  obtain ⟨f, hf, hshape⟩ := List.mem_flatMap.mp hshape
  obtain ⟨place, hplace⟩ : ∃ place, (f, place) ∈ r.fields.zipIdx := by
    obtain ⟨place, hlt, hget⟩ := List.mem_iff_getElem.mp hf
    refine ⟨place, List.mem_zipIdx_iff_getElem?.mpr ?_⟩
    rw [List.getElem?_eq_getElem hlt, hget]
  have hstatements : Occurs part
      (r.fields.zipIdx.flatMap fun place => place.1.statements rt place.2) :=
    .flatMap hplace (f.occurs_statements hshape h place)
  have hbody : Occurs part (r.decodeImpl rt) := by
    refine .append_left _ (.later (.later (.inside ?_)))
    exact .append_left _ (.inside (.append_right _ hstatements))
  exact .append_left _ hbody

theorem SourceFile.occurs_tokens {file : SourceFile} {shape : TextShape}
    (hshape : shape ∈ file.shapes) (h : Occurs part shape.tokens) : Occurs part file.tokens := by
  obtain ⟨r, hr, hshape⟩ := List.mem_flatMap.mp hshape
  exact .append_left _ (.flatMap hr (r.occurs_tokens hshape h))

end Occurs

end SchemaWire
