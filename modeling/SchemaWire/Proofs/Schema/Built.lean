import SchemaWire.Proofs.Constraint.Compiled
import SchemaWire.Proofs.Schema.Records
import SchemaWire.Proofs.Stateful
import SchemaWire.Schema.Build

/-!
What is true of every schema that the builder returns. The fields of a record are declared one after
the other, so a property of field lists that each declaration keeps holds of every record, at
whatever depth and behind whatever names.
-/

namespace SchemaWire

/-- Induction over type expressions. For a struct the property is known of the type of every
field. -/
@[elab_as_elim, induction_eliminator]
theorem TypeExpr.induct {motive : TypeExpr → Prop}
    (named : ∀ name, motive (.named name))
    (scalar : ∀ kind, motive (.scalar kind))
    (pointer : ∀ elem, motive elem → motive (.pointer elem))
    (array : ∀ length elem, motive elem → motive (.array length elem))
    (slice : ∀ elem, motive elem → motive (.slice elem))
    (map : ∀ key value, motive key → motive value → motive (.map key value))
    (struct : ∀ fields : List (FieldDecl TypeExpr), (∀ d ∈ fields, motive d.type) →
      motive (.struct fields))
    (unsupported : ∀ shape, motive (.unsupported shape))
    (type : TypeExpr) : motive type :=
  TypeExpr.rec (motive_2 := fun decls => ∀ d ∈ decls, motive d.type)
    (motive_3 := fun d => motive d.type)
    named scalar pointer array slice map struct unsupported
    (List.forall_mem_nil _) (fun _ _ hhead htail => List.forall_mem_cons.mpr ⟨hhead, htail⟩)
    (fun _ _ _ htype => htype) type

namespace Builder

open Stateful

variable {α : Type} {stack stack' : List String}

theorem expanding_eq_ok {name : String} {body : Builder α} {a : α} :
    expanding name body stack = .ok a stack' ↔
      ∃ mid, body (name :: stack) = .ok a mid ∧ stack' = mid.tail := by
  unfold expanding
  cases body (name :: stack) with
  | ok b mid =>
      simp only [EStateM.Result.ok.injEq]
      constructor
      · rintro ⟨rfl, rfl⟩
        exact ⟨mid, ⟨rfl, rfl⟩, rfl⟩
      · rintro ⟨_, ⟨rfl, rfl⟩, rfl⟩
        exact ⟨rfl, rfl⟩
  | error e mid => simp

theorem inField_eq_ok {name : String} {body : Builder α} {a : α} :
    inField name body stack = .ok a stack' ↔ body stack = .ok a stack' := by
  unfold inField
  cases body stack with
  | ok b mid => rfl
  | error e mid => simp

theorem attempt_eq_ok {body : Builder α} {found : Option α}
    (h : attempt body stack = .ok found stack') :
    ∀ a ∈ found, body stack = .ok a stack' := by
  unfold attempt at h
  cases hbody : body stack with
  | ok b mid =>
      rw [hbody] at h
      cases h
      rintro a ⟨⟩
      rfl
  | error e mid =>
      rw [hbody] at h
      cases h
      nofun

theorem constraints_eq_ok {name : String} {result : Except ConstraintError α} {a : α} :
    constraints name result stack = .ok a stack' ↔ result = .ok a ∧ stack' = stack := by
  cases result with
  | ok b => rw [constraints, pure_eq_ok, Except.ok.injEq, eq_comm]
  | error e => simp [constraints, throw_ne_ok]

theorem nodup_names_append {front : FieldList} {f : Field Schema}
    (hfront : (front.map (·.name)).Nodup) (hfresh : ∀ g ∈ front, g.name ≠ f.name) :
    ((front ++ [f]).map (·.name)).Nodup := by
  rw [List.map_append, List.nodup_append]
  exact ⟨hfront, by simp, by simpa using hfresh⟩

/-- A property of field lists that holds of the empty one and is kept by every declaration that the
builder accepts. -/
structure Kept (P : FieldList → Prop) : Prop where
  nil : P []
  skipped : ∀ {front : FieldList} {name : String} (type : Schema), P front →
    (∀ f ∈ front, f.name ≠ name) → P (front ++ [⟨name, type, true, []⟩])
  declared : ∀ {front : FieldList} {name : String} {type : Schema} {tag : Tag}
    {compiled : List Constraint}, P front → (∀ f ∈ front, f.name ≠ name) →
    tag.declarations.mapM (fun d => Constraint.compile d.name d.argument name type) =
      .ok compiled →
    P (front ++ [⟨name, type, false, compiled⟩])

variable {P : FieldList → Prop} {expand : String → Builder Schema}

theorem layerFields_kept (hP : Kept P) {decls : List (FieldDecl TypeExpr)}
    (hlayer : ∀ d ∈ decls, ∀ {stack schema stack'}, layer expand d.type stack = .ok schema stack' →
      schema.EachRecord P)
    {front fields : FieldList} {stack stack' : List String}
    (hfront : P front ∧ Schema.EachField P front)
    (h : layerFields expand front decls stack = .ok fields stack') :
    P fields ∧ Schema.EachField P fields := by
  -- By induction on the declarations; the fields in front of them have the property already.
  induction decls generalizing front stack with
  | nil =>
      obtain ⟨rfl, -⟩ := pure_eq_ok.mp h
      exact hfront
  | cons d decls ih =>
      have ih := fun {front stack} =>
        @ih (fun x hx => hlayer x (List.mem_cons_of_mem d hx)) front stack
      have hgrow : ∀ {f : Field Schema}, P (front ++ [f]) → f.type.EachRecord P →
          P (front ++ [f]) ∧ Schema.EachField P (front ++ [f]) := by
        intro f hPf htype
        refine ⟨hPf, Schema.eachField_iff.mpr ?_⟩
        simpa [or_imp, forall_and] using ⟨Schema.eachField_iff.mp hfront.2, htype⟩
      rw [layerFields] at h
      split at h
      · exact (throw_ne_ok h).elim
      · next hnew =>
        have hfresh : ∀ f ∈ front, f.name ≠ d.name := by simpa using hnew
        obtain ⟨tag, mid, htag, h⟩ := bind_eq_ok.mp h
        split at h
        · obtain ⟨kept, mid', hkept, h⟩ := bind_eq_ok.mp h
          cases kept with
          | none => exact ih (by simpa using hfront) h
          | some type =>
              have htype := hlayer d List.mem_cons_self (attempt_eq_ok hkept type rfl)
              exact ih (hgrow (hP.skipped type hfront.1 hfresh) htype) h
        · obtain ⟨type, mid', htype, h⟩ := bind_eq_ok.mp h
          obtain ⟨compiled, mid'', hcompiled, h⟩ := bind_eq_ok.mp h
          have htype := hlayer d List.mem_cons_self (inField_eq_ok.mp htype)
          have hcompiled := (constraints_eq_ok.mp hcompiled).1
          exact ih (hgrow (hP.declared hfront.1 hfresh hcompiled) htype) h

theorem layer_kept (hP : Kept P)
    (hexpand : ∀ {name stack schema stack'}, expand name stack = .ok schema stack' →
      schema.EachRecord P)
    {type : TypeExpr} {schema : Schema} (h : layer expand type stack = .ok schema stack') :
    schema.EachRecord P := by
  induction type generalizing schema stack stack' with
  | named name => exact hexpand h
  | scalar kind =>
      obtain ⟨rfl, -⟩ := pure_eq_ok.mp h
      trivial
  | pointer elem ih =>
      obtain ⟨e, he, rfl⟩ := bind_pure_eq_ok.mp h
      have helem := ih he
      exact helem
  | array n elem ih =>
      obtain ⟨e, he, rfl⟩ := bind_pure_eq_ok.mp h
      have helem := ih he
      exact helem
  | slice elem ih =>
      rw [layer] at h
      split at h
      · obtain ⟨rfl, -⟩ := pure_eq_ok.mp h
        trivial
      · obtain ⟨e, he, rfl⟩ := bind_pure_eq_ok.mp h
        have helem := ih he
        exact helem
  | map key value ihkey ihvalue =>
      obtain ⟨k, mid, hk, h⟩ := bind_eq_ok.mp h
      split at h
      · obtain ⟨v, hv, rfl⟩ := bind_pure_eq_ok.mp h
        exact ⟨ihkey hk, ihvalue hv⟩
      · exact (throw_ne_ok h).elim
  | struct decls ih =>
      obtain ⟨fields, hfields, rfl⟩ := bind_pure_eq_ok.mp h
      exact layerFields_kept hP (fun d hd _ _ _ => ih d hd) ⟨hP.nil, trivial⟩ hfields
  | unsupported shape => exact (throw_ne_ok h).elim

end Builder

namespace Schema

theorem eachRecord_withName {P : FieldList → Prop} {schema : Schema} (name : String)
    (h : schema.EachRecord P) : (schema.withName name).EachRecord P := by
  cases schema <;> exact h

end Schema

namespace Builder

open Stateful

theorem expand_kept {P : FieldList → Prop} (hP : Kept P) {reg : Registry} {layers : Nat}
    {name : String} {stack stack' : List String} {schema : Schema}
    (h : expand reg layers name stack = .ok schema stack') : schema.EachRecord P := by
  -- Without a layer left no name is expanded; otherwise the layer below expands the names.
  induction layers generalizing name stack stack' schema with
  | zero =>
      obtain ⟨named, mid, -, h⟩ := bind_eq_ok.mp h
      exact (throw_ne_ok h).elim
  | succ layers ih =>
      obtain ⟨named, mid, -, h⟩ := bind_eq_ok.mp h
      obtain ⟨built, hbuilt, rfl⟩ := bind_pure_eq_ok.mp h
      obtain ⟨mid', hlayer, -⟩ := expanding_eq_ok.mp hbuilt
      exact Schema.eachRecord_withName _ (layer_kept hP ih hlayer)

end Builder

namespace Schema

open Stateful

/-- The builder can return the schema, for some registry and some type or registered name. -/
def Buildable (schema : Schema) : Prop :=
  ∃ reg : Registry, (∃ type, build reg type = .ok schema) ∨ ∃ name, buildNamed reg name = .ok schema

theorem ofBuilder_eq_ok {α : Type} {body : Builder α} {a : α} :
    ofBuilder body = .ok a ↔ ∃ stack, body [] = .ok a stack := by
  unfold ofBuilder
  cases body [] <;> simp

/-- What every accepted declaration keeps is true of every record of a built schema. -/
theorem Buildable.eachRecord {P : FieldList → Prop} (hP : Builder.Kept P) {schema : Schema}
    (h : schema.Buildable) : schema.EachRecord P := by
  obtain ⟨reg, ⟨type, htype⟩ | ⟨name, hname⟩⟩ := h
  · obtain ⟨stack, htype⟩ := ofBuilder_eq_ok.mp htype
    exact Builder.layer_kept hP (fun h => Builder.expand_kept hP h) htype
  · obtain ⟨stack, hname⟩ := ofBuilder_eq_ok.mp hname
    exact Builder.expand_kept hP hname

theorem Buildable.distinctNames {schema : Schema} (h : schema.Buildable) :
    schema.DistinctNames := by
  have hkept : Builder.Kept fun fields => (fields.map (·.name)).Nodup :=
    { nil := List.nodup_nil
      skipped := fun _ hfront hfresh => Builder.nodup_names_append hfront hfresh
      declared := fun hfront hfresh _ => Builder.nodup_names_append hfront hfresh }
  exact h.eachRecord hkept

/-- Bounds on a length are attached only to fields whose contents have one. -/
def Measured (fields : FieldList) : Prop :=
  ∀ f ∈ fields, ∀ k ∈ f.constraints, k.boundsLength = true →
    RuleKind.minLen.appliesTo f.type = true

theorem Buildable.measured {schema : Schema} (h : schema.Buildable) :
    schema.EachRecord Measured := by
  have hgrow : ∀ {front : FieldList} {f : Field Schema}, Measured front →
      (∀ k ∈ f.constraints, k.boundsLength = true → RuleKind.minLen.appliesTo f.type = true) →
      Measured (front ++ [f]) := by
    intro front f hfront hf g hg
    rcases List.mem_append.mp hg with hg | hg
    · exact hfront g hg
    · obtain rfl := List.mem_singleton.mp hg
      exact hf
  have hkept : Builder.Kept Measured :=
    { nil := nofun
      skipped := fun _ hfront _ => hgrow hfront nofun
      declared := fun hfront _ hcompiled => hgrow hfront fun k hk hbounds => by
        obtain ⟨d, -, hd⟩ := forall_of_mapM_eq_ok hcompiled k hk
        exact Constraint.appliesTo_of_compile hd hbounds }
  exact h.eachRecord hkept

end Schema

end SchemaWire
