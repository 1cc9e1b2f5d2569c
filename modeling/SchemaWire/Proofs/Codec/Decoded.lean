import SchemaWire.Proofs.Codec.Normal
import SchemaWire.Proofs.Value.Record

/-!
The values that reading returns. They have the containers and fields of their schema, their lengths
have a prefix, no map repeats a key, and a skipped field is zero. Such a value is its own normal
form.
-/

namespace SchemaWire.Schema

open Reader

mutual

/-- Whether a value is one that reading may return, constraints apart. -/
def Normal : Schema → Value → Prop
  | .scalar .string _, .text s => (Text.utf8 s).length < 2 ^ 63
  | .scalar .bool _, .flag _ => True
  | .scalar (.num k) _, .num n => n.kind = k
  | .optional _, .absent => True
  | .optional elem, .present inner => Normal elem inner
  | .array n elem _, .array items => items.length = n ∧ ∀ v ∈ items, Normal elem v
  | .sequence elem _, .sequence items => items.length < 2 ^ 63 ∧ ∀ v ∈ items, Normal elem v
  | .map key val _, .map entries =>
    entries.length < 2 ^ 63 ∧ Entries.DistinctKeys entries ∧
      ∀ e ∈ entries, Normal key e.1 ∧ Normal val e.2
  | .bytes _, .bytes bs => bs.length < 2 ^ 63
  | .record _ fields, .record values => NormalFields fields values
  | _, _ => False

/-- Field by field: the same names, zero where the schema skips, normal where the field travels. -/
def NormalFields : List (Field Schema) → Fields → Prop
  | [], values => values = []
  | ⟨name, type, skip, _⟩ :: fields, values =>
    ∃ v rest, values = (name, v) :: rest ∧ (if skip then v = type.zero else Normal type v) ∧
      NormalFields fields rest

end

theorem map_fst_of_normalFields {fields : FieldList} {values : Fields}
    (h : NormalFields fields values) : values.map (·.1) = fields.map (·.name) := by
  induction fields generalizing values with
  | nil =>
      obtain rfl : values = [] := h
      rfl
  | cons f fields ih =>
      obtain ⟨v, rest, rfl, -, hrest⟩ := h
      rw [List.map_cons, List.map_cons, ih hrest]

theorem get?_of_normalFields {fields : FieldList} {values : Fields}
    (hnames : (fields.map (·.name)).Nodup) (h : NormalFields fields values) :
    ∀ f ∈ values, values.get? f.1 = some f.2 := by
  rw [← map_fst_of_normalFields h] at hnames
  exact fun f hf => Fields.get?_of_mem hnames hf

theorem lt_of_announces {gate : List Constraint} {n : Nat} (h : announces gate n = true) :
    n < 2 ^ 63 := by
  rw [announces, Bool.and_eq_true, decide_eq_true_eq] at h
  exact h.1

theorem forall_of_chain {α : Type} {item : Reader α} {P : α → Prop}
    (h : ∀ {a c c'}, item c = .ok a c' → P a) {as : List α} {c c' : Cursor}
    (hchain : Chain item c as c') : ∀ a ∈ as, P a := by
  induction hchain with
  | nil => simp
  | cons ha _ ih => exact List.forall_mem_cons.mpr ⟨h ha, ih⟩

theorem forall_of_entries {key val : Schema} {P Q : Value → Prop}
    (hkey : ∀ {v c c'}, key.read [] c = .ok v c' → P v)
    (hval : ∀ {v c c'}, val.read [] c = .ok v c' → Q v) {entries : Entries} {c c' : Cursor}
    (hchain : Chain (readEntry key val) c entries c') : ∀ e ∈ entries, P e.1 ∧ Q e.2 := by
  refine forall_of_chain (fun {e c c'} he => ?_) hchain
  obtain ⟨mid, hreadKey, hreadVal⟩ := readEntry_eq_ok.mp he
  exact ⟨hkey hreadKey, hval hreadVal⟩

theorem normal_of_read {schema : Schema} {gate : List Constraint} {value : Value} {c c' : Cursor}
    (h : schema.read gate c = .ok value c') : schema.Normal value := by
  induction schema generalizing gate value c c' with
  | scalar k name =>
      cases k with
      | string =>
          obtain ⟨s, mid, rfl, hannounce, -, -⟩ := read_string_eq_ok.mp h
          exact lt_of_announces hannounce
      | bool =>
          obtain ⟨x, rfl, -⟩ := read_bool_eq_ok.mp h
          trivial
      | num k =>
          obtain ⟨w, rfl, -⟩ := read_num_eq_ok.mp h
          rfl
  | optional elem ih =>
      rcases read_optional_eq_ok.mp h with ⟨rfl, -⟩ | ⟨x, mid, inner, -, rfl, -, hinner⟩
      · trivial
      · exact ih hinner
  | array n elem name ih =>
      obtain ⟨items, rfl, hlen, hchain⟩ := read_array_eq_ok.mp h
      exact ⟨hlen, forall_of_chain ih hchain⟩
  | sequence elem name ih =>
      obtain ⟨items, mid, rfl, hannounce, -, hchain⟩ := read_sequence_eq_ok.mp h
      exact ⟨lt_of_announces hannounce, forall_of_chain ih hchain⟩
  | map key val name ihkey ihval =>
      obtain ⟨entries, mid, rfl, hannounce, -, hchain⟩ := read_map_eq_ok.mp h
      have hentries := forall_of_entries ihkey ihval hchain
      refine ⟨?_, Entries.distinct_fold entries, Entries.forall_fold hentries⟩
      exact Nat.lt_of_le_of_lt (Entries.length_fold_le entries) (lt_of_announces hannounce)
  | bytes name =>
      obtain ⟨bs, mid, rfl, hannounce, -, -⟩ := read_bytes_eq_ok.mp h
      exact lt_of_announces hannounce
  | record name fields ih =>
      obtain ⟨values, rfl, hfields⟩ := read_record_eq_ok.mp h
      show NormalFields fields values
      clear h
      induction fields generalizing values c with
      | nil => exact (readFields_nil_eq_ok.mp hfields).1
      | cons f fields ihfields =>
          obtain ⟨v, mid, rest, rfl, hfield, hrest⟩ := readFields_cons_eq_ok.mp hfields
          have hnormal := ihfields (fun g hg => ih g (List.mem_cons_of_mem f hg)) rest hrest
          refine ⟨v, rest, rfl, ?_, hnormal⟩
          split
          · next hskip =>
            rw [readField_of_skip hskip] at hfield
            exact (Stateful.pure_eq_ok.mp hfield).1
          · next hskip =>
            have hread := ((readField_eq_ok (by simpa using hskip)).mp hfield).1
            exact ih f List.mem_cons_self hread

theorem get?_of_readFields {fields : FieldList} {values : Fields} {c c' : Cursor}
    (hnames : (fields.map (·.name)).Nodup) (h : readFields fields c = .ok values c') :
    ∀ e ∈ values, Fields.get? e.1 values = some e.2 := by
  have hrecord : (record none fields).read [] c = .ok (.record values) c' :=
    read_record_eq_ok.mpr ⟨values, rfl, h⟩
  exact get?_of_normalFields hnames (normal_of_read hrecord)

theorem exists_mem_of_readFields {fields : FieldList} {values : Fields} {c c' : Cursor}
    (h : readFields fields c = .ok values c') :
    ∀ f ∈ fields, ∃ v mid mid', (f.name, v) ∈ values ∧ readField f mid = .ok v mid' := by
  induction fields generalizing values c with
  | nil => exact fun f hf => by cases hf
  | cons f fields ih =>
      obtain ⟨v, mid, rest, rfl, hread, hrest⟩ := readFields_cons_eq_ok.mp h
      refine List.forall_mem_cons.mpr ⟨⟨v, c, mid, List.mem_cons_self, hread⟩, fun g hg => ?_⟩
      obtain ⟨w, before, behind, hmem, hw⟩ := ih hrest g hg
      exact ⟨w, before, behind, List.mem_cons_of_mem _ hmem, hw⟩

theorem exists_of_readFields {fields : FieldList} {values : Fields} {c c' : Cursor}
    (hnames : (fields.map (·.name)).Nodup) (h : readFields fields c = .ok values c') :
    ∀ f ∈ fields, ∃ v mid mid', values.get? f.name = some v ∧ readField f mid = .ok v mid' := by
  intro f hf
  obtain ⟨v, mid, mid', hmem, hread⟩ := exists_mem_of_readFields h f hf
  exact ⟨v, mid, mid', get?_of_readFields hnames h (f.name, v) hmem, hread⟩

theorem norm_of_normal {schema : Schema} (hnames : schema.DistinctNames) {value : Value}
    (h : schema.Normal value) : schema.norm value = value := by
  induction schema generalizing value with
  | scalar k name => cases value <;> rfl
  | optional elem ih =>
      cases value with
      | present inner => rw [norm, ih hnames h]
      | _ => rfl
  | array n elem name ih =>
      cases value with
      | array items => rw [norm, List.map_congr_left fun v hv => ih hnames (h.2 v hv), List.map_id']
      | _ => rfl
  | sequence elem name ih =>
      cases value with
      | sequence items =>
          rw [norm, List.map_congr_left fun v hv => ih hnames (h.2 v hv), List.map_id']
      | _ => rfl
  | map key val name ihkey ihval =>
      cases value with
      | map entries =>
          have hentries : (entries.map fun e => (key.norm e.1, val.norm e.2)) = entries := by
            refine (List.map_congr_left fun e he => ?_).trans (List.map_id' entries)
            rw [ihkey hnames.1 (h.2.2 e he).1, ihval hnames.2 (h.2.2 e he).2]
          rw [norm, hentries, Entries.fold_of_distinct h.2.1]
      | _ => rfl
  | bytes name => cases value <;> rfl
  | record name fields ih =>
      cases value with
      | record values =>
          have hget := get?_of_normalFields hnames.1 h
          have htypes := eachField_iff.mp hnames.2
          -- The fields still to come are a tail of the record; lookups go to the whole of it.
          suffices hfields : ∀ (fields : FieldList) (rest : Fields),
              (∀ f ∈ fields, ∀ {v}, f.type.Normal v → f.type.norm v = v) →
              NormalFields fields rest → (∀ e ∈ rest, Fields.get? e.1 values = some e.2) →
              normFields fields values = rest by
            rw [norm, hfields fields values (fun f hf _ => ih f hf (htypes f hf)) h hget]
          clear ih h hget htypes hnames
          intro fields
          induction fields with
          | nil =>
              rintro rest - rfl -
              rfl
          | cons f fields ihfields =>
              rintro _ hnorm ⟨v, rest, rfl, hv, hrest⟩ hget
              have htail := ihfields rest (fun g hg => hnorm g (List.mem_cons_of_mem f hg)) hrest
                fun e he => hget e (List.mem_cons_of_mem _ he)
              have hlookup := hget (f.name, v) List.mem_cons_self
              rw [normFields, htail]
              split at hv
              · next hskip => rw [if_pos hskip, hv]
              · next hskip =>
                rw [if_neg hskip, hlookup, Option.elim_some, hnorm f List.mem_cons_self hv]
      | _ => rfl

end SchemaWire.Schema
