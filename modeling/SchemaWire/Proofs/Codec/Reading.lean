import SchemaWire.Codec.Decode
import SchemaWire.Proofs.Schema.Records
import SchemaWire.Proofs.Value.Entries
import SchemaWire.Proofs.Wire.Reading

/-!
What it takes for the reader of a schema to succeed: an equivalence for every kind of schema, which
says what value comes out and which bytes lie between the cursors.
-/

namespace SchemaWire.Schema

open Reader Stateful

-- The equations of these are made here once, for all the inversions below.
attribute [local simp] read readField readFields

def announces (gate : List Constraint) (n : Nat) : Bool :=
  decide (n < 2 ^ 63) && gate.all (·.rule.admitsLength n)

theorem announces_nil {n : Nat} : announces [] n = true ↔ n < 2 ^ 63 := by
  rw [announces, List.all_nil, Bool.and_true, decide_eq_true_eq]

theorem gatedLength_eq_ok_iff {gate : List Constraint} {n : Nat} {c c' : Cursor} :
    gatedLength gate c = .ok n c' ↔ announces gate n = true ∧ c.Passed (Bytes.ofLength n) c' := by
  rw [gatedLength_eq_ok, announces, Bool.and_eq_true, decide_eq_true_eq]
  exact ⟨fun ⟨hall, hlt, hp⟩ => ⟨⟨hlt, hall⟩, hp⟩, fun ⟨⟨hlt, hall⟩, hp⟩ => ⟨hall, hlt, hp⟩⟩

def readEntry (key val : Schema) : Reader (Value × Value) := do
  return (← read [] key, ← read [] val)

theorem readEntry_eq_ok {key val : Schema} {e : Value × Value} {c c' : Cursor} :
    readEntry key val c = .ok e c' ↔
      ∃ mid, read [] key c = .ok e.1 mid ∧ read [] val mid = .ok e.2 c' := by
  simp only [readEntry, bind_eq_ok, pure_eq_ok]
  constructor
  · rintro ⟨k, mid, hkey, v, _, hval, rfl, rfl⟩
    exact ⟨mid, hkey, hval⟩
  · rintro ⟨mid, hkey, hval⟩
    exact ⟨e.1, mid, hkey, e.2, c', hval, rfl, rfl⟩

variable {gate : List Constraint} {name : Option String} {value : Value} {c c' : Cursor}

theorem read_string_eq_ok :
    read gate (.scalar .string name) c = .ok value c' ↔
      ∃ s mid, value = .text s ∧ announces gate (Text.utf8 s).length = true ∧
        c.Passed (Bytes.ofLength (Text.utf8 s).length) mid ∧ mid.Passed (Text.utf8 s) c' := by
  rw [read, bind_eq_ok]
  simp only [bind_pure_eq_ok, gatedLength_eq_ok_iff, text_eq_ok]
  constructor
  · rintro ⟨_, mid, ⟨hannounce, hlength⟩, s, ⟨rfl, htext⟩, rfl⟩
    exact ⟨s, mid, rfl, hannounce, hlength, htext⟩
  · rintro ⟨s, mid, rfl, hannounce, hlength, htext⟩
    exact ⟨_, mid, ⟨hannounce, hlength⟩, s, ⟨rfl, htext⟩, rfl⟩

theorem read_bool_eq_ok :
    read gate (.scalar .bool name) c = .ok value c' ↔
      ∃ x : UInt8, value = .flag (x ≠ 0) ∧ c.Passed [x] c' := by
  simp only [read, bind_pure_eq_ok, flag_eq_ok]
  constructor
  · rintro ⟨_, ⟨x, hpassed, rfl⟩, rfl⟩
    exact ⟨x, rfl, hpassed⟩
  · rintro ⟨x, rfl, hpassed⟩
    exact ⟨_, ⟨x, hpassed, rfl⟩, rfl⟩

theorem read_num_eq_ok {k : NumKind} :
    read gate (.scalar (.num k) name) c = .ok value c' ↔
      ∃ w : BitVec k.bits, value = .num ⟨k, w⟩ ∧
        c.Passed (Bytes.littleEndian k.width w.toNat) c' := by
  simp only [read, bind_pure_eq_ok, word_eq_ok, and_comm]

theorem read_optional_eq_ok {elem : Schema} :
    read gate (.optional elem) c = .ok value c' ↔
      (value = .absent ∧ c.Passed [0] c') ∨
        ∃ (x : UInt8) (mid : Cursor) (inner : Value), x ≠ 0 ∧ value = .present inner ∧
          c.Passed [x] mid ∧
            read (if elem.isPrefixed then gate else []) elem mid = .ok inner c' := by
  simp only [read, bind_eq_ok, flag_eq_ok]
  constructor
  · rintro ⟨_, mid, ⟨x, hpassed, rfl⟩, h⟩
    by_cases hx : x = 0
    · subst hx
      obtain ⟨rfl, rfl⟩ := pure_eq_ok.mp h
      exact .inl ⟨rfl, hpassed⟩
    · rw [if_pos (decide_eq_true hx)] at h
      obtain ⟨inner, hinner, rfl⟩ := bind_pure_eq_ok.mp h
      exact .inr ⟨x, mid, inner, hx, rfl, hpassed, hinner⟩
  · rintro (⟨rfl, hpassed⟩ | ⟨x, mid, inner, hx, rfl, hpassed, hinner⟩)
    · exact ⟨false, c', ⟨0, hpassed, rfl⟩, rfl⟩
    · refine ⟨true, mid, ⟨x, hpassed, (decide_eq_true hx).symm⟩, ?_⟩
      rw [if_pos rfl]
      exact bind_pure_eq_ok.mpr ⟨inner, hinner, rfl⟩

theorem read_array_eq_ok {n : Nat} {elem : Schema} :
    read gate (.array n elem name) c = .ok value c' ↔
      ∃ items, value = .array items ∧ items.length = n ∧ Chain (read [] elem) c items c' := by
  simp only [read, bind_pure_eq_ok, times_eq_ok]
  constructor
  · rintro ⟨items, ⟨hlen, hchain⟩, rfl⟩
    exact ⟨items, rfl, hlen, hchain⟩
  · rintro ⟨items, rfl, hlen, hchain⟩
    exact ⟨items, ⟨hlen, hchain⟩, rfl⟩

theorem read_sequence_eq_ok {elem : Schema} :
    read gate (.sequence elem name) c = .ok value c' ↔
      ∃ items mid, value = .sequence items ∧ announces gate items.length = true ∧
        c.Passed (Bytes.ofLength items.length) mid ∧ Chain (read [] elem) mid items c' := by
  rw [read, bind_eq_ok]
  simp only [bind_pure_eq_ok, gatedLength_eq_ok_iff, times_eq_ok]
  constructor
  · rintro ⟨_, mid, ⟨hannounce, hlength⟩, items, ⟨rfl, hchain⟩, rfl⟩
    exact ⟨items, mid, rfl, hannounce, hlength, hchain⟩
  · rintro ⟨items, mid, rfl, hannounce, hlength, hchain⟩
    exact ⟨_, mid, ⟨hannounce, hlength⟩, items, ⟨rfl, hchain⟩, rfl⟩

theorem read_map_eq_ok {key val : Schema} :
    read gate (.map key val name) c = .ok value c' ↔
      ∃ (entries : Entries) (mid : Cursor), value = .map entries.fold ∧
        announces gate entries.length = true ∧ c.Passed (Bytes.ofLength entries.length) mid ∧
        Chain (readEntry key val) mid entries c' := by
  rw [read, ← readEntry, bind_eq_ok]
  simp only [bind_pure_eq_ok, gatedLength_eq_ok_iff, times_eq_ok, EntryTable.toList_ofList]
  constructor
  · rintro ⟨_, mid, ⟨hannounce, hlength⟩, entries, ⟨rfl, hchain⟩, rfl⟩
    exact ⟨entries, mid, rfl, hannounce, hlength, hchain⟩
  · rintro ⟨entries, mid, rfl, hannounce, hlength, hchain⟩
    exact ⟨_, mid, ⟨hannounce, hlength⟩, entries, ⟨rfl, hchain⟩, rfl⟩

theorem read_bytes_eq_ok :
    read gate (.bytes name) c = .ok value c' ↔
      ∃ bs mid, value = .bytes bs ∧ announces gate bs.length = true ∧
        c.Passed (Bytes.ofLength bs.length) mid ∧ mid.Passed bs c' := by
  rw [read, bind_eq_ok]
  simp only [bind_pure_eq_ok, gatedLength_eq_ok_iff, take_eq_ok]
  constructor
  · rintro ⟨_, mid, ⟨hannounce, hlength⟩, bs, ⟨rfl, hbody⟩, rfl⟩
    exact ⟨bs, mid, rfl, hannounce, hlength, hbody⟩
  · rintro ⟨bs, mid, rfl, hannounce, hlength, hbody⟩
    exact ⟨_, mid, ⟨hannounce, hlength⟩, bs, ⟨rfl, hbody⟩, rfl⟩

theorem read_record_eq_ok {fields : FieldList} :
    read gate (.record name fields) c = .ok value c' ↔
      ∃ values, value = .record values ∧ readFields fields c = .ok values c' := by
  simp only [read, bind_pure_eq_ok, and_comm]

theorem readField_of_skip {f : Field Schema} (hskip : f.skip = true) :
    readField f = pure f.type.zero := by
  rw [readField, if_pos hskip]

theorem readField_eq_ok {f : Field Schema} (hskip : f.skip = false) :
    readField f c = .ok value c' ↔
      read f.gates f.type c = .ok value c' ∧ f.checks.all (·.accepts value) = true := by
  rw [readField, if_neg (by simp [hskip]), ← Field.gates, ← Field.checks]
  simp only [bind_eq_ok, require_eq_ok, pure_eq_ok]
  constructor
  · rintro ⟨_, _, hread, _, _, ⟨hchecks, rfl⟩, rfl, rfl⟩
    exact ⟨hread, hchecks⟩
  · rintro ⟨hread, hchecks⟩
    exact ⟨value, c', hread, (), c', ⟨hchecks, rfl⟩, rfl, rfl⟩

theorem readFields_nil_eq_ok {values : Fields} :
    readFields [] c = .ok values c' ↔ values = [] ∧ c' = c := by
  rw [readFields, pure_eq_ok]

theorem readFields_cons_eq_ok {f : Field Schema} {fields : FieldList} {values : Fields} :
    readFields (f :: fields) c = .ok values c' ↔
      ∃ v mid rest, values = (f.name, v) :: rest ∧ readField f c = .ok v mid ∧
        readFields fields mid = .ok rest c' := by
  simp only [readFields, bind_eq_ok, pure_eq_ok]
  constructor
  · rintro ⟨v, mid, hfield, rest, _, hrest, rfl, rfl⟩
    exact ⟨v, mid, rest, rfl, hfield, hrest⟩
  · rintro ⟨v, mid, rest, rfl, hfield, hrest⟩
    exact ⟨v, mid, hfield, rest, c', hrest, rfl, rfl⟩

/-! ### Whole inputs -/

variable {schema : Schema} {input : Bytes} {e : DecodeError}

theorem decode_eq_ok :
    schema.decode input = .ok value ↔ ∃ c, schema.reader (.start input) = .ok value c :=
  run_eq_ok

theorem decode_eq_error :
    schema.decode input = .error e ↔ ∃ c, schema.reader (.start input) = .error e c :=
  run_eq_error

theorem decodeAll_eq_ok :
    schema.decodeAll input = .ok value ↔
      ∃ c, schema.reader (.start input) = .ok value c ∧ c.rest = [] :=
  run_atEnd_eq_ok

theorem decodeAll_eq_error :
    schema.decodeAll input = .error e ↔
      (∃ c, schema.reader (.start input) = .error e c) ∨
        ∃ value c, schema.reader (.start input) = .ok value c ∧ c.rest ≠ [] ∧
          e = .trailing c.remaining :=
  run_atEnd_eq_error

end SchemaWire.Schema
