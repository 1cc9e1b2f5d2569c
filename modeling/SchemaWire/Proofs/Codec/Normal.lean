import SchemaWire.Proofs.Codec.Emission
import SchemaWire.Proofs.Codec.Reading

/-!
Reading back what was written. A value comes back in the normal form of its schema: records have
exactly the fields of the schema, in its order, and maps have been folded by key. It comes back if
it passes the checks that reading makes on the way.
-/

namespace SchemaWire.Schema

mutual

/-- What a value of the schema becomes when it is written and read back. -/
def norm : Schema → Value → Value
  | .optional elem, .present inner => .present (norm elem inner)
  | .array _ elem _, .array items => .array (items.map (norm elem))
  | .sequence elem _, .sequence items => .sequence (items.map (norm elem))
  | .map key val _, .map entries =>
    .map (Entries.fold (entries.map fun e => (norm key e.1, norm val e.2)))
  | .record _ fields, .record values => .record (normFields fields values)
  | _, value => value

def normFields : List (Field Schema) → Fields → Fields
  | [], _ => []
  | ⟨name, type, skip, _⟩ :: fields, values =>
    (name, if skip then type.zero else (values.get? name).elim type.zero (norm type)) ::
      normFields fields values

end

mutual

/-- Whether a value passes the checks that reading it makes: on its length if `gate` bounds it, and
on the fields of the records inside. -/
def readable (gate : List Constraint) : Schema → Value → Bool
  | .scalar .string _, .text s => announces gate (Text.utf8 s).length
  | .optional elem, .present inner => readable (if elem.isPrefixed then gate else []) elem inner
  | .array _ elem _, .array items => items.all (readable [] elem)
  | .sequence elem _, .sequence items => announces gate items.length && items.all (readable [] elem)
  | .map key val _, .map entries =>
    announces gate entries.length && entries.all fun e => readable [] key e.1 && readable [] val e.2
  | .bytes _, .bytes bs => announces gate bs.length
  | .record _ fields, .record values => readableFields fields values
  | _, _ => true

def readableFields : List (Field Schema) → Fields → Bool
  | [], _ => true
  | ⟨name, type, skip, constraints⟩ :: fields, values =>
    (skip || (values.get? name).all fun value =>
      readable (constraints.filter (·.boundsLength)) type value &&
        (constraints.filter (!·.boundsLength)).all (·.accepts value)) &&
      readableFields fields values

end

theorem readableFields_iff {fields : FieldList} {values : Fields} :
    readableFields fields values = true ↔
      ∀ f ∈ fields, f.skip = false → ∀ v, values.get? f.name = some v →
        readable f.gates f.type v = true ∧ f.checks.all (·.accepts v) = true := by
  induction fields with
  | nil => simp [readableFields]
  | cons f fields ih =>
      rw [List.forall_mem_cons, ← ih]
      obtain ⟨name, type, skip, constraints⟩ := f
      cases skip <;> cases h : Fields.get? name values <;>
        simp [readableFields, Field.gates, Field.checks, h]

/-! ### Constraints see no difference -/

theorem length?_norm (schema : Schema) (value : Value) :
    (schema.norm value).length? = value.length? := by
  unfold norm
  split
  case h_3 => simp [Value.length?]
  all_goals rfl

theorem text?_norm (schema : Schema) (value : Value) :
    (schema.norm value).text? = value.text? := by
  unfold norm
  split <;> rfl

theorem order?_norm (literal : Literal) (schema : Schema) (value : Value) :
    literal.order? (schema.norm value) = literal.order? value := by
  unfold norm
  split <;> rfl

theorem acceptsValue_norm (rule : Rule) (schema : Schema) (value : Value) :
    rule.acceptsValue (schema.norm value) = rule.acceptsValue value := by
  cases rule <;> simp only [Rule.acceptsValue, length?_norm, text?_norm, order?_norm]

theorem accepts_norm (c : Constraint) (schema : Schema) (value : Value) :
    c.accepts (schema.norm value) = c.accepts value := by
  unfold norm
  split
  · next elem inner => exact acceptsValue_norm c.rule elem inner
  · next n elem name items => exact acceptsValue_norm c.rule (.array n elem name) (.array items)
  · next elem name items => exact acceptsValue_norm c.rule (.sequence elem name) (.sequence items)
  · next key val name entries => exact acceptsValue_norm c.rule (.map key val name) (.map entries)
  · next name fields values => exact acceptsValue_norm c.rule (.record name fields) (.record values)
  · rfl

/-! ### Reading what was emitted -/

open Reader

theorem chain_of_each {α β : Type} {item : Reader β} {emission : α → Emission} {g : α → β}
    {as : List α}
    (hitem : ∀ a ∈ as, ∀ {bs c c'}, emission a = .done bs → Cursor.Passed c bs c' →
      item c = .ok (g a) c')
    {bs : Bytes} {c c' : Cursor} (hemit : Emission.each emission as = .done bs)
    (hpassed : c.Passed bs c') : Chain item c (as.map g) c' := by
  induction as generalizing bs c with
  | nil =>
      obtain rfl := Emission.done_inj.mp hemit
      obtain rfl := Cursor.passed_nil.mp hpassed
      exact .nil _
  | cons a as ih =>
      obtain ⟨front, back, hfront, hback, rfl⟩ := Emission.andThen_eq_done.mp hemit
      obtain ⟨mid, hpassed, hpassed'⟩ := Cursor.passed_append.mp hpassed
      exact .cons (hitem a List.mem_cons_self hfront hpassed)
        (ih (fun x hx => hitem x (List.mem_cons_of_mem a hx)) hback hpassed')

/-- The type reads back what it emitted, whatever the bounds on its length. -/
def ReadsBack (schema : Schema) : Prop :=
  ∀ {gate : List Constraint} {value : Value} {bs : Bytes} {c c' : Cursor},
    schema.emit value = .done bs → schema.readable gate value = true → c.Passed bs c' →
      schema.read gate c = .ok (schema.norm value) c'

theorem readsBack_scalar (k : Kind) (name : Option String) : ReadsBack (.scalar k name) := by
  intro gate value bs c c' hemit hread hpassed
  cases k with
  | string =>
      obtain ⟨s, rfl, rfl⟩ := emit_string_eq_done.mp hemit
      obtain ⟨mid, hlength, htext⟩ := Cursor.passed_append.mp hpassed
      exact read_string_eq_ok.mpr ⟨s, mid, rfl, hread, hlength, htext⟩
  | bool =>
      obtain ⟨b, rfl, rfl⟩ := emit_bool_eq_done.mp hemit
      exact read_bool_eq_ok.mpr ⟨_, by cases b <;> rfl, hpassed⟩
  | num k =>
      obtain ⟨w, rfl, rfl⟩ := emit_num_eq_done.mp hemit
      exact read_num_eq_ok.mpr ⟨w, rfl, hpassed⟩

theorem readsBack_optional {elem : Schema} (h : elem.ReadsBack) : ReadsBack (.optional elem) := by
  intro gate value bs c c' hemit hread hpassed
  rcases emit_optional_eq_done.mp hemit with ⟨rfl, rfl⟩ | ⟨inner, back, rfl, hback, rfl⟩
  · exact read_optional_eq_ok.mpr (.inl ⟨rfl, hpassed⟩)
  · obtain ⟨mid, hpresence, hinner⟩ := Cursor.passed_append.mp hpassed
    exact read_optional_eq_ok.mpr
      (.inr ⟨1, mid, elem.norm inner, by decide, rfl, hpresence, h hback hread hinner⟩)

theorem readsBack_array {n : Nat} {elem : Schema} {name : Option String} (h : elem.ReadsBack) :
    ReadsBack (.array n elem name) := by
  intro gate value bs c c' hemit hread hpassed
  obtain ⟨items, rfl, hlen, hitems⟩ := emit_array_eq_done.mp hemit
  rw [readable, List.all_eq_true] at hread
  refine read_array_eq_ok.mpr ⟨items.map elem.norm, rfl, (List.length_map _).trans hlen, ?_⟩
  exact chain_of_each (fun v hv _ _ _ hv' hp => h hv' (hread v hv) hp) hitems hpassed

theorem readsBack_sequence {elem : Schema} {name : Option String} (h : elem.ReadsBack) :
    ReadsBack (.sequence elem name) := by
  intro gate value bs c c' hemit hread hpassed
  obtain ⟨items, body, rfl, hitems, rfl⟩ := emit_sequence_eq_done.mp hemit
  obtain ⟨mid, hlength, hbody⟩ := Cursor.passed_append.mp hpassed
  rw [readable, Bool.and_eq_true, List.all_eq_true] at hread
  have hchain := chain_of_each (fun v hv _ _ _ hv' hp => h hv' (hread.2 v hv) hp) hitems hbody
  refine read_sequence_eq_ok.mpr ⟨items.map elem.norm, mid, rfl, ?_⟩
  rw [List.length_map]
  exact ⟨hread.1, hlength, hchain⟩

theorem readsBack_map {key val : Schema} {name : Option String} (hkey : key.ReadsBack)
    (hval : val.ReadsBack) : ReadsBack (.map key val name) := by
  intro gate value bs c c' hemit hread hpassed
  obtain ⟨entries, body, rfl, hentries, rfl⟩ := emit_map_eq_done.mp hemit
  obtain ⟨mid, hlength, hbody⟩ := Cursor.passed_append.mp hpassed
  simp only [readable, Bool.and_eq_true, List.all_eq_true] at hread
  have hentry : ∀ e ∈ entries, ∀ {bs c c'}, emitEntry key val e = .done bs → Cursor.Passed c bs c' →
      readEntry key val c = .ok (key.norm e.1, val.norm e.2) c' := by
    intro e he bs c c' hemit hp
    obtain ⟨front, back, hfront, hback, rfl⟩ := Emission.andThen_eq_done.mp hemit
    obtain ⟨mid, hpkey, hpval⟩ := Cursor.passed_append.mp hp
    exact readEntry_eq_ok.mpr
      ⟨mid, hkey hfront (hread.2 e he).1 hpkey, hval hback (hread.2 e he).2 hpval⟩
  refine read_map_eq_ok.mpr
    ⟨entries.map fun e => (key.norm e.1, val.norm e.2), mid, by rw [norm], ?_⟩
  rw [List.length_map]
  exact ⟨hread.1, hlength, chain_of_each hentry hentries hbody⟩

theorem readFields_of_emit {fields : FieldList} (h : ∀ f ∈ fields, f.type.ReadsBack)
    {values : Fields} {bs : Bytes} {c c' : Cursor} (hemit : emitFields fields values = .done bs)
    (hread : ∀ f ∈ fields, f.skip = false → ∀ v, values.get? f.name = some v →
      readable f.gates f.type v = true ∧ f.checks.all (·.accepts v) = true)
    (hpassed : c.Passed bs c') : readFields fields c = .ok (normFields fields values) c' := by
  induction fields generalizing bs c with
  | nil =>
      obtain rfl := Emission.done_inj.mp hemit
      obtain rfl := Cursor.passed_nil.mp hpassed
      exact readFields_nil_eq_ok.mpr ⟨rfl, rfl⟩
  | cons f fields ih =>
      have ih := fun {bs c} => @ih (fun g hg => h g (List.mem_cons_of_mem f hg)) bs c
      obtain ⟨hfield, hrest⟩ := List.forall_mem_cons.mp hread
      rw [readFields_cons_eq_ok]
      cases hskip : f.skip with
      | true =>
          rw [emitFields_of_skip hskip] at hemit
          refine ⟨f.type.zero, c, normFields fields values, ?_, ?_, ih hemit hrest hpassed⟩
          · rw [normFields, if_pos hskip]
          · rw [readField_of_skip hskip]
            rfl
      | false =>
          obtain ⟨v, front, back, hget, hfront, hback, rfl⟩ := (emitFields_eq_done hskip).mp hemit
          obtain ⟨mid, hpv, hprest⟩ := Cursor.passed_append.mp hpassed
          obtain ⟨hgates, hchecks⟩ := hfield hskip v hget
          refine ⟨f.type.norm v, mid, normFields fields values, ?_, ?_, ih hback hrest hprest⟩
          · rw [normFields, if_neg (by simp [hskip]), hget, Option.elim_some]
          · rw [readField_eq_ok hskip]
            refine ⟨h f List.mem_cons_self hfront hgates hpv, ?_⟩
            simpa only [accepts_norm] using hchecks

/-- What was written for a value is read back as its normal form, and nothing more is consumed. -/
theorem readsBack (schema : Schema) : schema.ReadsBack := by
  induction schema with
  | scalar k name => exact readsBack_scalar k name
  | optional elem ih => exact readsBack_optional ih
  | array n elem name ih => exact readsBack_array ih
  | sequence elem name ih => exact readsBack_sequence ih
  | map key val name ihkey ihval => exact readsBack_map ihkey ihval
  | bytes name =>
      intro gate value bs c c' hemit hread hpassed
      obtain ⟨body, rfl, rfl⟩ := emit_bytes_eq_done.mp hemit
      obtain ⟨mid, hlength, hbody⟩ := Cursor.passed_append.mp hpassed
      exact read_bytes_eq_ok.mpr ⟨body, mid, rfl, hread, hlength, hbody⟩
  | record name fields ih =>
      intro gate value bs c c' hemit hread hpassed
      obtain ⟨values, rfl, hfields⟩ := emit_record_eq_done.mp hemit
      exact read_record_eq_ok.mpr
        ⟨normFields fields values, rfl,
          readFields_of_emit ih hfields (readableFields_iff.mp hread) hpassed⟩

end SchemaWire.Schema
