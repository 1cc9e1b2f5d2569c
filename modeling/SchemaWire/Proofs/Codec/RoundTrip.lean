import SchemaWire.Proofs.Codec.Normal

/-!
Decoding undoes encoding. A value whose lengths have a prefix, and which meets the constraints of
its schema, is read back as its normal form from any input that starts with its encoding.
-/

namespace SchemaWire

namespace Value

mutual

/-- Whether every text, byte string, sequence and map in a value is shorter than `2 ^ 63`. -/
def short : Value → Bool
  | .text s => (Text.utf8 s).length < 2 ^ 63
  | .flag _ | .num _ | .absent => true
  | .present inner => short inner
  | .array items => shortItems items
  | .sequence items => items.length < 2 ^ 63 && shortItems items
  | .map entries => entries.length < 2 ^ 63 && shortEntries entries
  | .bytes bs => bs.length < 2 ^ 63
  | .record fields => shortFields fields

def shortItems : List Value → Bool
  | [] => true
  | v :: vs => short v && shortItems vs

def shortEntries : List (Value × Value) → Bool
  | [] => true
  | (k, v) :: es => short k && short v && shortEntries es

def shortFields : List (String × Value) → Bool
  | [] => true
  | (_, v) :: fs => short v && shortFields fs

end

theorem shortItems_iff {items : List Value} :
    shortItems items = true ↔ ∀ v ∈ items, v.short = true := by
  induction items with
  | nil => simp [shortItems]
  | cons v vs ih => simp [shortItems, ih]

theorem shortEntries_iff {entries : Entries} :
    shortEntries entries = true ↔ ∀ e ∈ entries, e.1.short = true ∧ e.2.short = true := by
  induction entries with
  | nil => simp [shortEntries]
  | cons e es ih => simp [shortEntries, ih]

theorem short_of_get? {fields : Fields} {name : String} {v : Value}
    (hshort : shortFields fields = true) (hget : fields.get? name = some v) : v.short = true := by
  induction fields with
  | nil => cases hget
  | cons f fs ih =>
      rw [shortFields, Bool.and_eq_true] at hshort
      unfold Fields.get? at hget
      split at hget
      · cases hget
        exact hshort.1
      · exact ih hshort.2 hget

end Value

namespace Schema

mutual

/-- Whether a value has the containers and fields that the schema tells of, and every constraint
accepts the value of the field to which it is attached, in every record at whatever depth. -/
def accepts : Schema → Value → Bool
  | .scalar .., _ | .bytes _, _ => true
  | .optional _, .absent => true
  | .optional elem, .present inner => accepts elem inner
  | .array _ elem _, .array items => items.all (accepts elem)
  | .sequence elem _, .sequence items => items.all (accepts elem)
  | .map key val _, .map entries => entries.all fun e => accepts key e.1 && accepts val e.2
  | .record _ fields, .record values => acceptsFields fields values
  | _, _ => false

def acceptsFields : List (Field Schema) → Fields → Bool
  | [], _ => true
  | ⟨name, type, skip, constraints⟩ :: fields, values =>
    (skip || (values.get? name).any fun value =>
      constraints.all (·.accepts value) && accepts type value) &&
      acceptsFields fields values

end

theorem acceptsFields_iff {fields : FieldList} {values : Fields} :
    acceptsFields fields values = true ↔
      ∀ f ∈ fields, f.skip = false → ∃ v, values.get? f.name = some v ∧
        f.constraints.all (·.accepts v) = true ∧ f.type.accepts v = true := by
  induction fields with
  | nil => simp [acceptsFields]
  | cons f fields ih =>
      rw [List.forall_mem_cons, ← ih]
      obtain ⟨name, type, skip, constraints⟩ := f
      cases skip <;> cases h : Fields.get? name values <;> simp [acceptsFields, h]

/-! ### Accepted values pass the checks of reading -/

theorem admitsLength_of_accepts {k : Constraint} {value : Value} {n : Nat}
    (hlen : value.length? = some n) (haccepts : k.accepts value = true) :
    k.rule.admitsLength n = true := by
  have hvalue : k.rule.acceptsValue value = true := by
    cases value with
    | text | sequence | bytes => exact haccepts
    | _ => cases hlen
  cases hrule : k.rule <;> rw [hrule] at hvalue <;>
    simp_all [Rule.acceptsValue, Rule.admitsLength]

theorem announces_of_accepts {gate : List Constraint} {value : Value} {n : Nat}
    (hlen : value.length? = some n) (hlt : n < 2 ^ 63)
    (hgate : ∀ k ∈ gate, k.accepts value = true) : announces gate n = true := by
  rw [announces, Bool.and_eq_true, decide_eq_true_eq, List.all_eq_true]
  exact ⟨hlt, fun k hk => admitsLength_of_accepts hlen (hgate k hk)⟩

/-- Bounds on a length never accept a map, so if they do there are none. -/
theorem eq_nil_of_accepts_map {gate : List Constraint} {entries : Entries}
    (h : ∀ k ∈ gate, k.boundsLength = true ∧ k.accepts (.map entries) = true) : gate = [] := by
  refine List.eq_nil_iff_forall_not_mem.mpr fun k hk => ?_
  obtain ⟨hbounds, haccepts⟩ := h k hk
  obtain ⟨field, rule, optional⟩ := k
  cases rule with
  | minLen | maxLen => exact absurd haccepts Bool.false_ne_true
  | _ => cases hbounds

theorem accepts_present {inner : Value} (hform : inner.form ≠ .optional) (k : Constraint) :
    k.accepts (.present inner) = k.accepts inner := by
  cases inner with
  | absent | present => exact (hform rfl).elim
  | _ => rfl

theorem form_of_emit {schema : Schema} {value : Value} {bs : Bytes}
    (h : schema.emit value = .done bs) : value.form = schema.form := by
  cases schema with
  | scalar k name =>
      cases k with
      | string =>
          obtain ⟨s, rfl, -⟩ := emit_string_eq_done.mp h
          rfl
      | bool =>
          obtain ⟨b, rfl, -⟩ := emit_bool_eq_done.mp h
          rfl
      | num k =>
          obtain ⟨w, rfl, -⟩ := emit_num_eq_done.mp h
          rfl
  | optional elem =>
      rcases emit_optional_eq_done.mp h with ⟨rfl, -⟩ | ⟨inner, back, rfl, -, -⟩ <;> rfl
  | _ => cases value <;> first | rfl | cases h

theorem form_ne_optional {schema : Schema} (h : schema.isPrefixed = true) :
    schema.form ≠ .optional := by
  cases schema with
  | optional elem => cases h
  | _ => nofun

variable {schema : Schema} {value : Value} {bs : Bytes}

theorem exists_of_each_eq_done {α : Type} {emission : α → Emission} {as : List α}
    (h : Emission.each emission as = .done bs) : ∀ a ∈ as, ∃ part, emission a = .done part := by
  induction as generalizing bs with
  | nil => simp
  | cons a as ih =>
      obtain ⟨front, back, hfront, hback, -⟩ := Emission.andThen_eq_done.mp h
      exact List.forall_mem_cons.mpr ⟨⟨front, hfront⟩, ih hback⟩

/-- A value that has an encoding, short lengths and accepted fields passes every check of reading,
also with bounds on its own length if they accept it. -/
theorem readable_of_accepts {gate : List Constraint} (hemit : schema.emit value = .done bs)
    (hshort : value.short = true) (haccepts : schema.accepts value = true)
    (hgate : ∀ k ∈ gate, k.boundsLength = true ∧ k.accepts value = true) :
    schema.readable gate value = true := by
  induction schema generalizing gate value bs with
  | scalar k name =>
      cases k with
      | string =>
          obtain ⟨s, rfl, -⟩ := emit_string_eq_done.mp hemit
          exact announces_of_accepts rfl (of_decide_eq_true hshort) fun k hk => (hgate k hk).2
      | bool | num => rfl
  | optional elem ih =>
      rcases emit_optional_eq_done.mp hemit with ⟨rfl, -⟩ | ⟨inner, back, rfl, hinner, -⟩
      · rfl
      · refine ih hinner hshort haccepts ?_
        split
        · next hprefixed =>
          intro k hk
          have hform : inner.form ≠ .optional :=
            form_of_emit hinner ▸ form_ne_optional hprefixed
          rw [← accepts_present hform]
          exact hgate k hk
        · simp
  | array n elem name ih =>
      obtain ⟨items, rfl, -, hitems⟩ := emit_array_eq_done.mp hemit
      rw [Value.short, Value.shortItems_iff] at hshort
      rw [accepts, List.all_eq_true] at haccepts
      rw [readable, List.all_eq_true]
      intro v hv
      obtain ⟨part, hpart⟩ := exists_of_each_eq_done hitems v hv
      exact ih hpart (hshort v hv) (haccepts v hv) (by simp)
  | sequence elem name ih =>
      obtain ⟨items, body, rfl, hitems, -⟩ := emit_sequence_eq_done.mp hemit
      rw [Value.short, Bool.and_eq_true, decide_eq_true_eq, Value.shortItems_iff] at hshort
      rw [accepts, List.all_eq_true] at haccepts
      rw [readable, Bool.and_eq_true, List.all_eq_true]
      have hlen : (Value.sequence items).length? = some items.length := rfl
      refine ⟨announces_of_accepts hlen hshort.1 fun k hk => (hgate k hk).2, ?_⟩
      intro v hv
      obtain ⟨part, hpart⟩ := exists_of_each_eq_done hitems v hv
      exact ih hpart (hshort.2 v hv) (haccepts v hv) (by simp)
  | map key val name ihkey ihval =>
      obtain ⟨entries, body, rfl, hentries, -⟩ := emit_map_eq_done.mp hemit
      rw [Value.short, Bool.and_eq_true, decide_eq_true_eq, Value.shortEntries_iff] at hshort
      simp only [accepts, List.all_eq_true, Bool.and_eq_true] at haccepts
      simp only [readable, Bool.and_eq_true, List.all_eq_true]
      constructor
      · -- The number of entries may change on the way, but nothing is asked of it.
        obtain rfl := eq_nil_of_accepts_map hgate
        exact announces_nil.mpr hshort.1
      · intro e he
        obtain ⟨part, hpart⟩ := exists_of_each_eq_done hentries e he
        obtain ⟨front, back, hfront, hback, -⟩ := Emission.andThen_eq_done.mp hpart
        exact ⟨ihkey hfront (hshort.2 e he).1 (haccepts e he).1 (by simp),
          ihval hback (hshort.2 e he).2 (haccepts e he).2 (by simp)⟩
  | bytes name =>
      obtain ⟨body, rfl, -⟩ := emit_bytes_eq_done.mp hemit
      have hlen : (Value.bytes body).length? = some body.length := rfl
      exact announces_of_accepts hlen (of_decide_eq_true hshort) fun k hk => (hgate k hk).2
  | record name fields ih =>
      obtain ⟨values, rfl, hfields⟩ := emit_record_eq_done.mp hemit
      rw [readable, readableFields_iff]
      intro f hf hskip w hw
      obtain ⟨v, part, hget, hpart⟩ := exists_of_emitFields hfields f hf hskip
      obtain ⟨u, hu, hconstraints, htype⟩ := acceptsFields_iff.mp haccepts f hf hskip
      obtain rfl : w = v := Option.some_inj.mp (hw.symm.trans hget)
      obtain rfl : u = w := Option.some_inj.mp (hu.symm.trans hw)
      rw [List.all_eq_true] at hconstraints
      constructor
      · refine ih f hf hpart (Value.short_of_get? hshort hget) htype fun k hk => ?_
        obtain ⟨hmem, hbounds⟩ := List.mem_filter.mp hk
        exact ⟨hbounds, hconstraints k hmem⟩
      · rw [List.all_eq_true]
        exact fun k hk => hconstraints k (List.mem_filter.mp hk).1

theorem accepts_strip (hemit : schema.emit value = .done bs) :
    schema.strip.accepts value = true := by
  induction schema generalizing value bs with
  | scalar | bytes => rfl
  | optional elem ih =>
      rcases emit_optional_eq_done.mp hemit with ⟨rfl, -⟩ | ⟨inner, back, rfl, hinner, -⟩
      · rfl
      · exact ih hinner
  | array n elem name ih =>
      obtain ⟨items, rfl, -, hitems⟩ := emit_array_eq_done.mp hemit
      rw [strip, accepts, List.all_eq_true]
      intro v hv
      obtain ⟨part, hpart⟩ := exists_of_each_eq_done hitems v hv
      exact ih hpart
  | sequence elem name ih =>
      obtain ⟨items, body, rfl, hitems, -⟩ := emit_sequence_eq_done.mp hemit
      rw [strip, accepts, List.all_eq_true]
      intro v hv
      obtain ⟨part, hpart⟩ := exists_of_each_eq_done hitems v hv
      exact ih hpart
  | map key val name ihkey ihval =>
      obtain ⟨entries, body, rfl, hentries, -⟩ := emit_map_eq_done.mp hemit
      simp only [strip, accepts, List.all_eq_true, Bool.and_eq_true]
      intro e he
      obtain ⟨part, hpart⟩ := exists_of_each_eq_done hentries e he
      obtain ⟨front, back, hfront, hback, -⟩ := Emission.andThen_eq_done.mp hpart
      exact ⟨ihkey hfront, ihval hback⟩
  | record name fields ih =>
      obtain ⟨values, rfl, hfields⟩ := emit_record_eq_done.mp hemit
      rw [strip, accepts, acceptsFields_iff]
      intro f hf hskip
      obtain ⟨g, hg, rfl⟩ := exists_of_mem_stripFields hf
      obtain ⟨v, part, hget, hpart⟩ := exists_of_emitFields hfields g hg hskip
      exact ⟨v, hget, rfl, ih g hg hpart⟩

/-- Decoding an input that starts with the encoding of a value gives the normal form of the value
and stops right behind the encoding, if the schema has no constraints or they accept the value. -/
theorem decode_encode (rest : Bytes) (hencode : schema.encode value = .ok bs)
    (hshort : value.short = true)
    (haccepts : schema.strip = schema ∨ schema.accepts value = true) :
    schema.reader (.start (bs ++ rest)) = .ok (schema.norm value) ⟨bs.length, rest⟩ := by
  have hemit := encode_eq_ok.mp hencode
  have haccepted : schema.accepts value = true := by
    rcases haccepts with hstrip | haccepts
    · rw [← hstrip]
      exact accepts_strip hemit
    · exact haccepts
  have hreadable : schema.readable [] value = true :=
    readable_of_accepts hemit hshort haccepted (by simp)
  exact readsBack schema hemit hreadable (Cursor.passed_start_append bs rest)

def entrySchema : Schema :=
  .record none
    [⟨"Cache", .array 2 (.scalar .bool none) none, true, []⟩,
     ⟨"Name", .optional (.scalar .string none), false,
       [⟨"Name", .minLen 2, true⟩, ⟨"Name", .startsWith "a", true⟩]⟩,
     ⟨"Counts", .map (.scalar (.num .uint8) none) (.scalar .bool none) none, false, []⟩]

/-- An entry that repeats a key and has a field too many. -/
def entryValue : Value :=
  .record
    [("Counts", .map [(.num ⟨.uint8, 7⟩, .flag true), (.num ⟨.uint8, 7⟩, .flag false)]),
     ("Other", .absent), ("Name", .present (.text "ab"))]

def entryBytes : Bytes :=
  [1, 4, 0, 0, 0, 0, 0, 0, 0, 97, 98, 4, 0, 0, 0, 0, 0, 0, 0, 7, 1, 7, 0]

theorem decode_encode_entry :
    entrySchema.encode entryValue = .ok entryBytes ∧ entrySchema.accepts entryValue = true ∧
      entrySchema.reader (.start (entryBytes ++ [9])) =
        .ok (entrySchema.norm entryValue) ⟨23, [9]⟩ := by
  have hencode : entrySchema.encode entryValue = .ok entryBytes := rfl
  have hshort : entryValue.short = true := rfl
  have haccepts : entrySchema.accepts entryValue = true := rfl
  exact ⟨hencode, haccepts, decode_encode [9] hencode hshort (.inr haccepts)⟩

/-- The encoding of a value, taken as a whole input, is decoded to the normal form of the value. -/
theorem decodeAll_encode (hencode : schema.encode value = .ok bs) (hshort : value.short = true)
    (haccepts : schema.accepts value = true) : schema.decodeAll bs = .ok (schema.norm value) := by
  have hemit := encode_eq_ok.mp hencode
  have hreadable : schema.readable [] value = true :=
    readable_of_accepts hemit hshort haccepts (by simp)
  have hread := readsBack schema hemit hreadable (Cursor.passed_start bs)
  exact decodeAll_eq_ok.mpr ⟨_, hread, rfl⟩

end Schema

end SchemaWire
