import Mathlib.Tactic.MkIffOfInductiveProp
import SchemaWire.Proofs.Schema.Records
import SchemaWire.Proofs.Stateful
import SchemaWire.Source.Item

/-!
The records that source is emitted for, as a walk that never fails: from a record through the types
of all its fields, skipped ones too, into every record with a display name that was not met before.
Collecting does this walk, and it succeeds exactly if no type on the way holds a record without a
display name or a map keyed by floats.
-/

namespace SchemaWire

open Stateful

namespace Schema

/-- The schema and what is inside it, as far as no record is entered. -/
def layers : Schema → List Schema
  | scalar kind name => [scalar kind name]
  | optional elem => optional elem :: layers elem
  | array n elem name => array n elem name :: layers elem
  | sequence elem name => sequence elem name :: layers elem
  | map key val name => map key val name :: (layers key ++ layers val)
  | bytes name => [bytes name]
  | record name fields => [record name fields]

/-- The type holds no record without a display name, and no map keyed by floats. -/
@[mk_iff]
structure Collectable (type : Schema) : Prop where
  named : ∀ fields, .record none fields ∉ type.layers
  keys : ∀ key val name, .map key val name ∈ type.layers →
    key.inner.scalarKind?.any Kind.isFloat = false

def Names (type : Schema) (names : List String) : Prop :=
  ∀ display fields, .record (some display) fields ∈ type.layers → display ∈ names

def FieldsCollectable (fields : FieldList) : Prop := ∀ f ∈ fields, f.type.Collectable

variable {elem key val : Schema} {name : Option String} {fields : FieldList}

theorem collectable_scalar {kind : Kind} : (scalar kind name).Collectable :=
  ⟨by simp [layers], by simp [layers]⟩

theorem collectable_bytes : (bytes name).Collectable := ⟨by simp [layers], by simp [layers]⟩

theorem collectable_optional : (optional elem).Collectable ↔ elem.Collectable := by
  simp [collectable_iff, layers]

theorem collectable_array {n : Nat} : (array n elem name).Collectable ↔ elem.Collectable := by
  simp [collectable_iff, layers]

theorem collectable_sequence : (sequence elem name).Collectable ↔ elem.Collectable := by
  simp [collectable_iff, layers]

theorem collectable_map : (map key val name).Collectable ↔
    key.inner.scalarKind?.any Kind.isFloat = false ∧ key.Collectable ∧ val.Collectable := by
  simp only [collectable_iff, layers, List.mem_cons, List.mem_append, reduceCtorEq, false_or,
    not_or, forall_and, or_imp]
  constructor
  · rintro ⟨⟨hkey, hval⟩, hself, hkeys, hvals⟩
    exact ⟨hself key val name rfl, ⟨hkey, hkeys⟩, hval, hvals⟩
  · rintro ⟨hself, ⟨hkey, hkeys⟩, hval, hvals⟩
    exact ⟨⟨hkey, hval⟩, fun _ _ _ hsame => by cases hsame; exact hself, hkeys, hvals⟩

theorem collectable_record {display : String} : (record (some display) fields).Collectable :=
  ⟨by simp [layers], by simp [layers]⟩

theorem not_collectable_record : ¬ (record none fields).Collectable :=
  fun h => h.named fields (List.mem_singleton_self _)

theorem fieldsCollectable_cons {f : Field Schema} :
    FieldsCollectable (f :: fields) ↔ f.type.Collectable ∧ FieldsCollectable fields :=
  List.forall_mem_cons

theorem Names.mono {type : Schema} {names more : List String} (h : type.Names names)
    (hsub : names ⊆ more) : type.Names more :=
  fun display fields hmem => hsub (h display fields hmem)

end Schema

namespace Collector

mutual

/-- The records that are entered from a type, one for each display name that was not seen. -/
def entered (seen : List String) : Schema → List NamedFields
  | .scalar .. | .bytes _ | .record none _ => []
  | .optional elem | .array _ elem _ | .sequence elem _ => entered seen elem
  | .map key val _ =>
    let inKey := entered seen key
    inKey ++ entered (seen ++ inKey.map (·.1)) val
  | .record (some name) fields =>
    if name ∈ seen then [] else (name, fields) :: enteredFields (seen ++ [name]) fields

def enteredFields (seen : List String) : List (Field Schema) → List NamedFields
  | [] => []
  | ⟨_, type, _, _⟩ :: fields =>
    let inType := entered seen type
    inType ++ enteredFields (seen ++ inType.map (·.1)) fields

end

def enteredFrom (root : NamedFields) : List NamedFields := root :: enteredFields [root.1] root.2

variable {before after : List NamedFields}

/-- Collecting succeeds where something holds and the types of all new records are collectable, and
the new records are noted down behind the others. -/
def Notes (holds : Prop) (new before after : List NamedFields) : Prop :=
  holds ∧ (∀ entry ∈ new, Schema.FieldsCollectable entry.2) ∧ after = before ++ new

theorem ok_iff_notes_nil {holds : Prop} (h : holds) :
    Except.ok (ε := EmitError) ((), before) = .ok ((), after) ↔ Notes holds [] before after := by
  rw [Notes, List.append_nil, Except.ok.injEq, Prod.mk.injEq]
  exact ⟨fun hsame => ⟨h, nofun, hsame.2.symm⟩, fun hnotes => ⟨rfl, hnotes.2.2.symm⟩⟩

theorem exists_notes_iff {p q : Prop} {a : List NamedFields}
    {b : List NamedFields → List NamedFields} :
    (∃ mid, Notes p a before mid ∧ Notes q (b mid) mid after) ↔
      Notes (p ∧ q) (a ++ b (before ++ a)) before after := by
  simp only [Notes, List.forall_mem_append]
  constructor
  · rintro ⟨mid, ⟨hp, ha, rfl⟩, hq, hb, rfl⟩
    exact ⟨⟨hp, hq⟩, ⟨ha, hb⟩, List.append_assoc ..⟩
  · rintro ⟨⟨hp, hq⟩, ⟨ha, hb⟩, rfl⟩
    exact ⟨before ++ a, ⟨hp, ha, rfl⟩, hq, hb, (List.append_assoc ..).symm⟩

theorem bind_eq_ok_iff {x : Collector Unit} {y : Unit → Collector Unit} :
    (x >>= y) before = .ok ((), after) ↔
      ∃ mid, x before = .ok ((), mid) ∧ y () mid = .ok ((), after) := by
  rw [stateT_bind_eq_ok]
  exact ⟨fun ⟨_, mid, hx, hy⟩ => ⟨mid, hx, hy⟩, fun ⟨mid, hx, hy⟩ => ⟨(), mid, hx, hy⟩⟩

theorem visitFields_eq_ok_iff {fields : FieldList}
    (hvisit : ∀ f ∈ fields, ∀ {before after}, visit f.name f.type before = .ok ((), after) ↔
      Notes f.type.Collectable (entered (before.map (·.1)) f.type) before after) :
    visitFields fields before = .ok ((), after) ↔ Notes (Schema.FieldsCollectable fields)
      (enteredFields (before.map (·.1)) fields) before after := by
  induction fields generalizing before with
  | nil => exact ok_iff_notes_nil nofun
  | cons f fields ih =>
      have ih := fun {before} => @ih before fun g hg => hvisit g (List.mem_cons_of_mem f hg)
      rw [visitFields, bind_eq_ok_iff]
      simp only [hvisit f List.mem_cons_self, ih]
      rw [exists_notes_iff, enteredFields, Schema.fieldsCollectable_cons, List.map_append]

/-- A record is noted down before its fields are visited, unless its name was met before. -/
theorem visit_record {field name : String} {fields : FieldList} :
    visit field (.record (some name) fields) before =
      if name ∈ before.map (·.1) then .ok ((), before)
      else visitFields fields (before ++ [(name, fields)]) := by
  have hseen : (before.any fun entry => entry.1 = name) = true ↔ name ∈ before.map (·.1) := by
    simp
  show (if (before.any fun entry => entry.1 = name) = true then pure () else _ :
    Collector Unit) before = _
  split
  · next h =>
    rw [if_pos (hseen.mp h)]
    rfl
  · next h =>
    rw [if_neg (mt hseen.mpr h)]
    rfl

theorem visit_eq_ok_iff {schema : Schema} {field : String} :
    visit field schema before = .ok ((), after) ↔
      Notes schema.Collectable (entered (before.map (·.1)) schema) before after := by
  induction schema generalizing field before after with
  | scalar => exact ok_iff_notes_nil Schema.collectable_scalar
  | bytes => exact ok_iff_notes_nil Schema.collectable_bytes
  | optional elem ih =>
      rw [Schema.collectable_optional]
      exact ih
  | array n elem _ ih =>
      rw [Schema.collectable_array]
      exact ih
  | sequence elem _ ih =>
      rw [Schema.collectable_sequence]
      exact ih
  | map key val _ ihkey ihval =>
      rw [Schema.collectable_map, visit, entered]
      split
      · next hfloat =>
        constructor
        · intro h
          cases h
        · rintro ⟨⟨hkey, -⟩, -⟩
          rw [hfloat] at hkey
          cases hkey
      · next hfloat =>
        rw [and_iff_right (Bool.not_eq_true _ ▸ hfloat), bind_eq_ok_iff]
        simp only [ihkey, ihval]
        rw [exists_notes_iff, List.map_append]
  | record name fields ih =>
      cases name with
      | none =>
          constructor
          · intro h
            cases h
          · intro h
            exact (Schema.not_collectable_record h.1).elim
      | some name =>
          rw [visit_record, entered]
          split
          · exact ok_iff_notes_nil Schema.collectable_record
          · rw [visitFields_eq_ok_iff fun f hf _ _ => ih f hf, Notes, Notes, List.map_append,
              List.forall_mem_cons, List.append_assoc, and_iff_right Schema.collectable_record,
              ← and_assoc]
            rfl

/-- The records of a source are those that are entered from its root. They can be collected exactly
if the types of all their fields are collectable. -/
theorem records_eq_ok_iff {name : String} {fields : FieldList} :
    records name fields = .ok after ↔
      (∀ entry ∈ enteredFrom (name, fields), Schema.FieldsCollectable entry.2) ∧
        after = enteredFrom (name, fields) := by
  have hvisit : records name fields = .ok after ↔
      visitFields fields [(name, fields)] = .ok ((), after) := by
    simp only [records, except_bind_eq_ok]
    constructor
    · rintro ⟨⟨⟨⟩, collected⟩, hvisit, h⟩
      cases h
      exact hvisit
    · exact fun h => ⟨_, h, rfl⟩
  rw [hvisit, visitFields_eq_ok_iff fun f _ _ _ => visit_eq_ok_iff, Notes, enteredFrom,
    List.forall_mem_cons, and_assoc]
  rfl

/-! ### The walk -/

/-- What is entered after some display names were seen: every name is new, and the types of the
records that are entered hold records with names that were seen or entered. -/
structure Enters (seen : List String) (new : List NamedFields) : Prop where
  nodup : seen.Nodup → (seen ++ new.map (·.1)).Nodup
  closed : ∀ entry ∈ new, ∀ f ∈ entry.2, f.type.Names (seen ++ new.map (·.1))

namespace Enters

variable {seen : List String} {a b : List NamedFields}

theorem nil : Enters seen [] := ⟨fun h => by rwa [List.map_nil, List.append_nil], nofun⟩

theorem append (ha : Enters seen a) (hb : Enters (seen ++ a.map (·.1)) b) :
    Enters seen (a ++ b) := by
  have hnames : seen ++ (a ++ b).map (·.1) = seen ++ a.map (·.1) ++ b.map (·.1) := by
    rw [List.map_append, List.append_assoc]
  refine ⟨fun hseen => ?_, fun entry hentry f hf => ?_⟩
  · rw [hnames]
    exact hb.nodup (ha.nodup hseen)
  · rw [hnames]
    rcases List.mem_append.mp hentry with hentry | hentry
    · exact (ha.closed entry hentry f hf).mono (List.subset_append_left _ _)
    · exact hb.closed entry hentry f hf

theorem cons {name : String} {fields : FieldList} (hnew : name ∉ seen)
    (hfields : ∀ f ∈ fields, f.type.Names (seen ++ [name] ++ a.map (·.1)))
    (h : Enters (seen ++ [name]) a) : Enters seen ((name, fields) :: a) := by
  have hnames : seen ++ ((name, fields) :: a).map (·.1) = seen ++ [name] ++ a.map (·.1) := by
    rw [List.map_cons, List.append_assoc, List.singleton_append]
  refine ⟨fun hseen => ?_, ?_⟩
  · rw [hnames]
    refine h.nodup (List.nodup_append.mpr ⟨hseen, List.pairwise_singleton _ name, ?_⟩)
    exact fun x hx y hy hxy => hnew (List.mem_singleton.mp hy ▸ hxy ▸ hx)
  · rw [hnames]
    exact List.forall_mem_cons.mpr ⟨hfields, h.closed⟩

end Enters

theorem enteredFields_enters (seen : List String) {fields : FieldList}
    (hentered : ∀ f ∈ fields, ∀ seen, Enters seen (entered seen f.type) ∧
      f.type.Names (seen ++ (entered seen f.type).map (·.1))) :
    Enters seen (enteredFields seen fields) ∧
      ∀ f ∈ fields, f.type.Names (seen ++ (enteredFields seen fields).map (·.1)) := by
  induction fields generalizing seen with
  | nil => exact ⟨.nil, nofun⟩
  | cons f fields ih =>
      obtain ⟨htype, hnames⟩ := hentered f List.mem_cons_self seen
      obtain ⟨hrest, hnamesRest⟩ := ih (seen ++ (entered seen f.type).map (·.1)) fun g hg =>
        hentered g (List.mem_cons_of_mem f hg)
      refine ⟨htype.append hrest, ?_⟩
      rw [enteredFields, List.map_append, ← List.append_assoc]
      exact List.forall_mem_cons.mpr ⟨hnames.mono (List.subset_append_left _ _), hnamesRest⟩

theorem entered_enters (seen : List String) (schema : Schema) :
    Enters seen (entered seen schema) ∧ schema.Names (seen ++ (entered seen schema).map (·.1)) := by
  induction schema generalizing seen with
  | scalar | bytes => exact ⟨.nil, by simp [Schema.Names, Schema.layers]⟩
  | optional elem ih | array n elem _ ih | sequence elem _ ih =>
      obtain ⟨helem, hnames⟩ := ih seen
      refine ⟨helem, fun display fields hmem => ?_⟩
      exact hnames display fields (by simpa [Schema.layers] using hmem)
  | map key val _ ihkey ihval =>
      obtain ⟨hkey, hnamesKey⟩ := ihkey seen
      obtain ⟨hval, hnamesVal⟩ := ihval (seen ++ (entered seen key).map (·.1))
      refine ⟨hkey.append hval, fun display fields hmem => ?_⟩
      rw [entered, List.map_append, ← List.append_assoc]
      have hmem : .record (some display) fields ∈ key.layers ∨
          .record (some display) fields ∈ val.layers := by
        simpa [Schema.layers] using hmem
      rcases hmem with hmem | hmem
      · exact List.mem_append_left _ (hnamesKey display fields hmem)
      · exact hnamesVal display fields hmem
  | record name fields ih =>
      cases name with
      | none => exact ⟨.nil, by simp [Schema.Names, Schema.layers]⟩
      | some name =>
          have hself : ∀ {names : List String}, name ∈ names →
              (Schema.record (some name) fields).Names names := by
            rintro names hname display fields' hmem
            cases List.mem_singleton.mp hmem
            exact hname
          rw [entered]
          split
          · next hseen => exact ⟨.nil, hself (List.mem_append_left _ hseen)⟩
          · next hnew =>
            obtain ⟨hfields, hnames⟩ := enteredFields_enters (seen ++ [name]) ih
            exact ⟨.cons hnew hnames hfields, hself (by simp)⟩

/-- The records of a walk have different display names, and hold no others than these. -/
theorem enteredFrom_closed (root : NamedFields) :
    ((enteredFrom root).map (·.1)).Nodup ∧
      ∀ entry ∈ enteredFrom root, ∀ f ∈ entry.2,
        f.type.Names ((enteredFrom root).map (·.1)) := by
  obtain ⟨hfields, hnames⟩ := enteredFields_enters [root.1] (fun f _ seen =>
    entered_enters seen f.type : ∀ f ∈ root.2, _)
  have hroot : Enters [] (enteredFrom root) := .cons List.not_mem_nil hnames hfields
  exact ⟨hroot.nodup List.nodup_nil, hroot.closed⟩

theorem mem_parts_of_mem_enteredFields (seen : List String) {fields : FieldList}
    (hentered : ∀ f ∈ fields, ∀ seen, ∀ entry ∈ entered seen f.type,
      .record (some entry.1) entry.2 ∈ f.type.parts) :
    ∀ entry ∈ enteredFields seen fields,
      .record (some entry.1) entry.2 ∈ Schema.fieldParts fields := by
  induction fields generalizing seen with
  | nil => nofun
  | cons f fields ih =>
      rw [enteredFields, List.forall_mem_append]
      constructor
      · exact fun entry hentry =>
          List.mem_append_left _ (hentered f List.mem_cons_self seen entry hentry)
      · exact fun entry hentry => List.mem_append_right _
          (ih _ (fun g hg => hentered g (List.mem_cons_of_mem f hg)) entry hentry)

theorem mem_parts_of_mem_entered (seen : List String) (schema : Schema) :
    ∀ entry ∈ entered seen schema, .record (some entry.1) entry.2 ∈ schema.parts := by
  induction schema generalizing seen with
  | scalar | bytes => nofun
  | optional elem ih | array n elem _ ih | sequence elem _ ih =>
      exact fun entry hentry => List.mem_cons_of_mem _ (ih seen entry hentry)
  | map key val _ ihkey ihval =>
      rw [entered, List.forall_mem_append]
      constructor
      · exact fun entry hentry =>
          List.mem_cons_of_mem _ (List.mem_append_left _ (ihkey _ entry hentry))
      · exact fun entry hentry =>
          List.mem_cons_of_mem _ (List.mem_append_right _ (ihval _ entry hentry))
  | record name fields ih =>
      cases name with
      | none => nofun
      | some name =>
          rw [entered]
          split
          · nofun
          · have hfields := mem_parts_of_mem_enteredFields (seen ++ [name]) ih
            refine List.forall_mem_cons.mpr ⟨List.mem_cons_self, fun entry hentry => ?_⟩
            exact List.mem_cons_of_mem _ (hfields entry hentry)

theorem mem_parts_of_mem_enteredFrom {root : NamedFields} : ∀ entry ∈ enteredFrom root,
    entry = root ∨ .record (some entry.1) entry.2 ∈ Schema.fieldParts root.2 := by
  refine List.forall_mem_cons.mpr ⟨.inl rfl, fun entry hentry => .inr ?_⟩
  exact mem_parts_of_mem_enteredFields [root.1]
    (fun f _ seen => mem_parts_of_mem_entered seen f.type) entry hentry

end Collector

end SchemaWire
