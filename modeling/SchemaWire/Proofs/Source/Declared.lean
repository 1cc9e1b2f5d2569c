import SchemaWire.Proofs.Source.Collected
import SchemaWire.Proofs.Source.Definitions

/-!
What the records of emitted source declare.

A field is declared by its name, its type, and whether it travels. The item of a record declares the
fields of its schema, in order. A record is collected under its name only once, and a record that a
type names is collected wherever the type was visited, so the types of emitted records name only
records that are emitted, and no two of these have the same name.
-/

namespace SchemaWire

open Stateful

/-! ### Identifiers -/

namespace Identifier

variable {name name' : String} {id id' : Identifier}

theorem ofName_eq_ok (h : ofName name = .ok id) :
    isWellFormed name.toList = true ∧ id = ⟨name, keywords.contains name⟩ := by
  unfold ofName at h
  split at h
  · cases h
  · next hform =>
    cases h
    rw [Bool.or_eq_true, not_or] at hform
    exact ⟨by simpa using hform.1, rfl⟩

theorem not_mem_hash_of_ofName (h : ofName name = .ok id) : '#' ∉ name.toList := by
  have hform := (ofName_eq_ok h).1
  cases hchars : name.toList with
  | nil => nofun
  | cons c cs =>
      rw [hchars, isWellFormed, Bool.and_eq_true, List.all_eq_true] at hform
      rintro (_ | ⟨_, hmem⟩)
      · exact absurd hform.1 (by decide)
      · exact absurd (hform.2 '#' hmem) (by decide)

theorem text_of_ofName (h : ofName name = .ok id) :
    id.text = if name ∈ keywords then "r#" ++ name else name := by
  obtain ⟨-, rfl⟩ := ofName_eq_ok h
  simp [text]

theorem mem_hash_raw (name : String) : '#' ∈ ("r#" ++ name).toList := by
  rw [String.toList_append]
  exact List.mem_append_left _ (by decide)

theorem plain_of_ofName (h : ofName name = .ok id) : id.Plain := by
  have hkeywords : ∀ keyword ∈ keywords, '#' ∉ keyword.toList := by decide
  rw [Plain, text_of_ofName h]
  split
  · exact fun hmem => hkeywords _ hmem (mem_hash_raw name)
  · next hfree => exact hfree

theorem eq_of_text_eq (h : ofName name = .ok id) (h' : ofName name' = .ok id')
    (htext : id.text = id'.text) : name = name' := by
  have hhash := not_mem_hash_of_ofName h
  have hhash' := not_mem_hash_of_ofName h'
  rw [text_of_ofName h, text_of_ofName h'] at htext
  split at htext <;> split at htext
  · exact (String.append_right_inj "r#").mp htext
  · exact absurd (htext ▸ mem_hash_raw name) hhash'
  · exact absurd (htext ▸ mem_hash_raw name') hhash
  · exact htext

theorem name_eq_of_ofName (h : ofName name = .ok id) (h' : ofName name' = .ok id) :
    name = name' :=
  eq_of_text_eq h h' rfl

end Identifier

theorem SourceType.exists_layer_of_ofSchema {schema : Schema} {type : SourceType}
    (h : ofSchema schema = .ok type) : ∀ id ∈ type.names, ∃ name fields,
      .record name fields ∈ schema.layers ∧ Identifier.ofName (name.getD "") = .ok id := by
  induction schema generalizing type with
  | scalar | bytes =>
      cases h
      nofun
  | optional elem ih | array n elem _ ih | sequence elem _ ih =>
      obtain ⟨inner, hinner, h⟩ := except_bind_eq_ok.mp h
      cases h
      intro id hid
      obtain ⟨name, fields, hmem, hname⟩ := ih hinner id hid
      exact ⟨name, fields, List.mem_cons_of_mem _ hmem, hname⟩
  | map key val _ ihkey ihval =>
      obtain ⟨k, hkey, h⟩ := except_bind_eq_ok.mp h
      obtain ⟨v, hval, h⟩ := except_bind_eq_ok.mp h
      cases h
      refine List.forall_mem_append.mpr ⟨fun id hid => ?_, fun id hid => ?_⟩
      · obtain ⟨name, fields, hmem, hname⟩ := ihkey hkey id hid
        exact ⟨name, fields, List.mem_cons_of_mem _ (List.mem_append_left _ hmem), hname⟩
      · obtain ⟨name, fields, hmem, hname⟩ := ihval hval id hid
        exact ⟨name, fields, List.mem_cons_of_mem _ (List.mem_append_right _ hmem), hname⟩
  | record name fields =>
      obtain ⟨id, hid, h⟩ := except_bind_eq_ok.mp h
      cases h
      exact List.forall_mem_singleton.mpr ⟨name, fields, List.mem_singleton_self _, hid⟩

theorem SourceType.plain_of_ofSchema {schema : Schema} {type : SourceType}
    (h : ofSchema schema = .ok type) : ∀ id ∈ type.names, id.Plain := by
  intro id hid
  obtain ⟨name, fields, -, hname⟩ := exists_layer_of_ofSchema h id hid
  exact Identifier.plain_of_ofName hname

/-! ### Declared fields -/

structure FieldHead where
  name : Identifier
  type : SourceType
  travels : Bool
  deriving Repr, DecidableEq

def FieldItem.head (f : FieldItem) : FieldHead := ⟨f.name, f.type, f.reading.isSome⟩

def Field.head (f : Field Schema) : Except EmitError FieldHead :=
  return ⟨← Identifier.ofName f.name, ← SourceType.ofSchema f.type, !f.skip⟩

theorem Field.head_eq_ok {f : Field Schema} {head : FieldHead} (h : f.head = .ok head) :
    Identifier.ofName f.name = .ok head.name ∧ SourceType.ofSchema f.type = .ok head.type ∧
      head.travels = !f.skip := by
  obtain ⟨id, hid, h⟩ := except_bind_eq_ok.mp h
  obtain ⟨type, htype, h⟩ := except_bind_eq_ok.mp h
  cases h
  exact ⟨hid, htype, rfl⟩

def FieldList.heads (fields : FieldList) : Except EmitError (List FieldHead) :=
  fields.mapM Field.head

namespace RecordItem

/-- The item declares the record of a name with these fields and no others. -/
structure Declares (r : RecordItem) (name : String) (fields : FieldList) : Prop where
  name : Identifier.ofName name = .ok r.name
  fields : fields.heads = .ok (r.fields.map FieldItem.head)

theorem declares_of_ofFields {name : String} {fields : FieldList} {r : RecordItem}
    (h : ofFields name fields = .ok r) : r.Declares name fields := by
  obtain ⟨id, hid, h⟩ := except_bind_eq_ok.mp h
  obtain ⟨heads, hheads, h⟩ := except_bind_eq_ok.mp h
  obtain ⟨items, hitems, h⟩ := except_bind_eq_ok.mp h
  cases h
  refine ⟨hid, mapM_eq_ok_of_passes hheads hitems fun {f head item} hhead hitem => ?_⟩
  obtain ⟨fieldName, hname, hhead⟩ := except_bind_eq_ok.mp hhead
  obtain ⟨type, htype, hhead⟩ := except_bind_eq_ok.mp hhead
  cases hhead
  rw [Field.head, hname, htype]
  cases hskip : f.skip with
  | true =>
      simp only [hskip] at hitem
      cases hitem
      rfl
  | false =>
      simp only [hskip] at hitem
      obtain ⟨reading, -, hitem⟩ := except_bind_eq_ok.mp hitem
      cases hitem
      rfl

namespace Declares

variable {r : RecordItem} {name : String} {fields : FieldList}

theorem exists_field (h : r.Declares name fields) {item : FieldItem} (hitem : item ∈ r.fields) :
    ∃ f ∈ fields, f.head = .ok item.head :=
  forall_of_mapM_eq_ok h.fields item.head (List.mem_map_of_mem hitem)

theorem exists_item (h : r.Declares name fields) {f : Field Schema} (hf : f ∈ fields) :
    ∃ item ∈ r.fields, f.head = .ok item.head := by
  obtain ⟨head, hhead, hf⟩ := exists_of_mem_of_mapM_eq_ok h.fields f hf
  obtain ⟨item, hitem, rfl⟩ := List.mem_map.mp hhead
  exact ⟨item, hitem, hf⟩

theorem plain (h : r.Declares name fields) : r.Plain := by
  refine ⟨Identifier.plain_of_ofName h.name, fun item hitem => ?_⟩
  obtain ⟨f, -, hf⟩ := h.exists_field hitem
  obtain ⟨hname, htype, -⟩ := Field.head_eq_ok hf
  exact ⟨Identifier.plain_of_ofName hname, SourceType.plain_of_ofSchema htype⟩

end Declares

end RecordItem

/-! ### Collected records -/

namespace Collector

/-- All records that the type of a schema names are collected. -/
def Covers (collected : List NamedFields) (schema : Schema) : Prop :=
  ∀ type, SourceType.ofSchema schema = .ok type → ∀ id ∈ type.names,
    ∃ entry ∈ collected, Identifier.ofName entry.1 = .ok id

theorem covers_of_names {collected : List NamedFields} {schema : Schema}
    (h : schema.Names (collected.map (·.1))) : Covers collected schema := by
  intro type htype id hid
  obtain ⟨name, fields, hmem, hname⟩ := SourceType.exists_layer_of_ofSchema htype id hid
  cases name with
  | none => cases (Identifier.ofName_eq_ok hname).1
  | some display =>
      obtain ⟨entry, hentry, rfl⟩ := List.mem_map.mp (h display fields hmem)
      exact ⟨entry, hentry, hname⟩

/-- The collected records have different names, the record itself is among them, and their types
name only records that are collected. -/
theorem records_closed {name : String} {fields : FieldList} {collected : List NamedFields}
    (h : records name fields = .ok collected) :
    (name, fields) ∈ collected ∧ (collected.map (·.1)).Nodup ∧
      ∀ entry ∈ collected, ∀ f ∈ entry.2, Covers collected f.type := by
  obtain ⟨-, rfl⟩ := records_eq_ok_iff.mp h
  obtain ⟨hnodup, hclosed⟩ := enteredFrom_closed (name, fields)
  exact ⟨List.mem_cons_self, hnodup, fun entry hentry f hf =>
    covers_of_names (hclosed entry hentry f hf)⟩

end Collector

end SchemaWire
