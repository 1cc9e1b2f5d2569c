import SchemaWire.Proofs.Codec.Decoded

/-!
Only the fields that travel matter. Values that differ in the order of the fields of records, and in
what records hold under other names than those of the fields that travel, are encoded alike: to the
same bytes, or to the same failure. On the way back every record gets exactly the fields of the
schema, and zero where the schema skips one.
-/

namespace SchemaWire

namespace Schema

/-! ### Values that are the same on the wire -/

/-- The two values differ at most in what does not travel: in the order of the fields of records, in
fields that the schema skips or does not know, and inside values whose form the schema refuses. -/
inductive SameOnWire : Schema → Value → Value → Prop where
  | refl {schema : Schema} (v : Value) : SameOnWire schema v v
  | present {elem : Schema} {v w : Value} :
      SameOnWire elem v w → SameOnWire (.optional elem) (.present v) (.present w)
  | array {n : Nat} {elem : Schema} {name : Option String} {vs ws : List Value} :
      vs.length = ws.length → (∀ p ∈ vs.zip ws, SameOnWire elem p.1 p.2) →
      SameOnWire (.array n elem name) (.array vs) (.array ws)
  | sequence {elem : Schema} {name : Option String} {vs ws : List Value} :
      vs.length = ws.length → (∀ p ∈ vs.zip ws, SameOnWire elem p.1 p.2) →
      SameOnWire (.sequence elem name) (.sequence vs) (.sequence ws)
  | map {key val : Schema} {name : Option String} {es es' : List (Value × Value)} :
      es.length = es'.length → (∀ p ∈ es.zip es', SameOnWire key p.1.1 p.2.1) →
      (∀ p ∈ es.zip es', SameOnWire val p.1.2 p.2.2) →
      SameOnWire (.map key val name) (.map es) (.map es')
  | record {name : Option String} {fields : FieldList} {r r' : Fields} :
      (∀ f ∈ fields, f.skip = false → (f.name ∈ r.map (·.1) ↔ f.name ∈ r'.map (·.1))) →
      (∀ f ∈ fields, f.skip = false → ∀ v w, (f.name, v) ∈ r → (f.name, w) ∈ r' →
        SameOnWire f.type v w) →
      SameOnWire (.record name fields) (.record r) (.record r')
  | misfit {schema : Schema} {v w : Value} :
      v.form ≠ schema.form → w.form = v.form → SameOnWire schema v w

theorem SameOnWire.of_get? {name : Option String} {fields : FieldList} {r r' : Fields}
    (hnames : (r.map (·.1)).Nodup) (hnames' : (r'.map (·.1)).Nodup)
    (hget : ∀ f ∈ fields, f.skip = false → r.get? f.name = r'.get? f.name) :
    SameOnWire (.record name fields) (.record r) (.record r') := by
  refine .record (fun f hf hskip => ?_) (fun f hf hskip v w hv hw => ?_)
  · rw [Fields.mem_names_iff, Fields.mem_names_iff, hget f hf hskip]
  · have heq := hget f hf hskip
    rw [Fields.get?_of_mem hnames hv, Fields.get?_of_mem hnames' hw] at heq
    obtain rfl : v = w := Option.some_inj.mp heq
    exact .refl v

section Writing

variable {σ : Type}

theorem each_eq_of_zip {α : Type} {item : α → Encoder σ Nat} {as bs : List α}
    (hlen : as.length = bs.length) (h : ∀ p ∈ as.zip bs, item p.1 = item p.2) :
    Encoder.each item as = Encoder.each item bs := by
  induction as generalizing bs with
  | nil => rw [List.length_eq_zero_iff.mp hlen.symm]
  | cons a as ih =>
      cases bs with
      | nil => cases hlen
      | cons b bs =>
          rw [List.zip_cons_cons, List.forall_mem_cons] at h
          rw [Encoder.each, Encoder.each, h.1, ih (Nat.succ.inj hlen) h.2]

variable [Sink σ]

/-- A value that is not of the form of the schema is refused for its form, and nothing is pushed. -/
theorem write_of_misfit {schema : Schema} {v : Value} (h : v.form ≠ schema.form) :
    (schema.write v : Encoder σ Nat) = throw (.mismatch schema.form v.form) := by
  cases schema with
  | scalar k name =>
      cases k with
      | num k =>
          cases v with
          | num n =>
              have hkind : n.kind ≠ k := fun hkind => h (by rw [← hkind]; rfl)
              rw [write, writeScalar, if_neg hkind]
              rfl
          | _ => rfl
      | string | bool => cases v <;> first | rfl | exact (h rfl).elim
  | _ => cases v <;> first | rfl | exact (h rfl).elim

theorem writeFields_eq {fields : FieldList} {r r' : Fields}
    (hsame : ∀ f ∈ fields, f.skip = false → (f.name ∈ r.map (·.1) ↔ f.name ∈ r'.map (·.1)))
    (hwrite : ∀ f ∈ fields, f.skip = false → ∀ v w, (f.name, v) ∈ r → (f.name, w) ∈ r' →
      (f.type.write v : Encoder σ Nat) = f.type.write w) :
    (writeFields fields r : Encoder σ Nat) = writeFields fields r' := by
  induction fields with
  | nil => rfl
  | cons f fields ih =>
      rw [List.forall_mem_cons] at hsame hwrite
      rw [writeFields, writeFields, ih hsame.2 hwrite.2]
      cases hskip : f.skip with
      | true => rfl
      | false =>
          have hiff := hsame.1 hskip
          rw [Fields.mem_names_iff, Fields.mem_names_iff] at hiff
          cases hv : r.get? f.name with
          | none =>
              cases hw : r'.get? f.name with
              | none => rfl
              | some w =>
                  obtain ⟨v, hv'⟩ := hiff.mpr ⟨w, hw⟩
                  rw [hv] at hv'
                  cases hv'
          | some v =>
              obtain ⟨w, hw⟩ := hiff.mp ⟨v, hv⟩
              have heq := hwrite.1 hskip v w (Fields.mem_of_get? hv) (Fields.mem_of_get? hw)
              rw [hw]
              simp only [heq]

theorem write_eq_of_sameOnWire {schema : Schema} {v w : Value} (h : schema.SameOnWire v w) :
    (schema.write v : Encoder σ Nat) = schema.write w := by
  induction h with
  | refl v => rfl
  | present _ ih => rw [write, write, ih]
  | @array n elem name vs ws hlen _ ih =>
      rw [write, write, hlen, each_eq_of_zip hlen ih]
  | sequence hlen _ ih => rw [write, write, hlen, each_eq_of_zip hlen ih]
  | map hlen _ _ ihkey ihval =>
      rw [write, write, hlen, each_eq_of_zip hlen fun p hp => by rw [ihkey p hp, ihval p hp]]
  | record hsame _ ih => rw [write, write, writeFields_eq hsame ih]
  | misfit hform hsame => rw [write_of_misfit hform, write_of_misfit (hsame ▸ hform), hsame]

end Writing

/-! ### Values with exactly the fields of the schema -/

mutual

/-- Every record in the value has exactly the fields of its schema, in order, and holds the zero
value in those that are skipped. -/
def Filled : Schema → Value → Prop
  | .scalar k _, value => value.form = .scalar k
  | .bytes _, value => value.form = .bytes
  | .optional _, .absent => True
  | .optional elem, .present inner => Filled elem inner
  | .array _ elem _, .array items => ∀ v ∈ items, Filled elem v
  | .sequence elem _, .sequence items => ∀ v ∈ items, Filled elem v
  | .map key val _, .map entries => ∀ e ∈ entries, Filled key e.1 ∧ Filled val e.2
  | .record _ fields, .record values => FilledFields fields values
  | _, _ => False

def FilledFields : List (Field Schema) → Fields → Prop
  | [], values => values = []
  | ⟨name, type, skip, _⟩ :: fields, values =>
    ∃ v rest, values = (name, v) :: rest ∧ (skip = true → v = type.zero) ∧ Filled type v ∧
      FilledFields fields rest

end

theorem filled_zero (schema : Schema) : schema.Filled schema.zero := by
  induction schema with
  | scalar k name => cases k <;> rfl
  | optional elem => trivial
  | array n elem name ih =>
      intro v hv
      rw [List.eq_of_mem_replicate hv]
      exact ih
  | sequence elem name => exact List.forall_mem_nil _
  | map key val name => exact List.forall_mem_nil _
  | bytes name => rfl
  | record name fields ih =>
      show FilledFields fields (zeroFields fields)
      induction fields with
      | nil => rfl
      | cons f fields ihfields =>
          have hrest := ihfields fun g hg => ih g (List.mem_cons_of_mem f hg)
          exact ⟨f.type.zero, zeroFields fields, rfl, fun _ => rfl, ih f List.mem_cons_self, hrest⟩

theorem filled_of_normal {schema : Schema} {value : Value} (h : schema.Normal value) :
    schema.Filled value := by
  induction schema generalizing value with
  | scalar k name =>
      cases k with
      | num k => cases value <;> first | exact congrArg (Form.scalar ∘ Kind.num) h | cases h
      | string | bool => cases value <;> first | rfl | cases h
  | optional elem ih =>
      cases value with
      | absent => trivial
      | present inner => exact ih h
      | _ => cases h
  | array n elem name ih =>
      cases value with
      | array items => exact fun v hv => ih (h.2 v hv)
      | _ => cases h
  | sequence elem name ih =>
      cases value with
      | sequence items => exact fun v hv => ih (h.2 v hv)
      | _ => cases h
  | map key val name ihkey ihval =>
      cases value with
      | map entries => exact fun e he => ⟨ihkey (h.2.2 e he).1, ihval (h.2.2 e he).2⟩
      | _ => cases h
  | bytes name => cases value <;> first | rfl | cases h
  | record name fields ih =>
      cases value with
      | record values =>
          show FilledFields fields values
          have hfields : NormalFields fields values := h
          clear h
          induction fields generalizing values with
          | nil => exact hfields
          | cons f fields ihfields =>
              obtain ⟨v, rest, rfl, hv, hrest⟩ := hfields
              have hfilled := ihfields (fun g hg => ih g (List.mem_cons_of_mem f hg)) rest hrest
              refine ⟨v, rest, rfl, fun hskip => ?_, ?_, hfilled⟩
              · rw [if_pos hskip] at hv
                exact hv
              · split at hv
                · rw [hv]
                  exact filled_zero f.type
                · exact ih f List.mem_cons_self hv
      | _ => cases h

/-- Only what travels matters: values that are the same on the wire have the same encoding or fail
in the same way, and every value that is decoded has in each of its records exactly the fields of
the schema, with zero in those that are skipped, whatever the input. -/
theorem only_wire_fields_matter (schema : Schema) :
    (∀ v w, schema.SameOnWire v w → schema.encode v = schema.encode w) ∧
    ∀ input value c, schema.reader (.start input) = .ok value c → schema.Filled value := by
  refine ⟨fun v w h => ?_, fun input value c h => filled_of_normal (normal_of_read h)⟩
  rw [encode, encode, write_eq_of_sameOnWire h]

def itemsSchema : Schema :=
  .sequence (.record none
    [⟨"Cache", .array 2 (.scalar .bool none) none, true, []⟩,
     ⟨"Id", .scalar (.num .uint8) none, false, []⟩,
     ⟨"Name", .scalar .string none, false, []⟩]) none

def cachedItems : Value :=
  .sequence [.record [("Cache", .text "hit"), ("Id", .num ⟨.uint8, 7⟩), ("Name", .text "a")]]

def bareItems : Value :=
  .sequence [.record [("Name", .text "a"), ("Age", .absent), ("Id", .num ⟨.uint8, 7⟩)]]

def namelessBytes : Bytes := [2, 0, 0, 0, 0, 0, 0, 0, 7, 0, 0, 0, 0, 0, 0, 0, 0]

/-- An item whose fields come in another order, without its cache, is encoded like the one that has
it, whatever the cache holds; and an item that is decoded has a zero cache. -/
theorem only_wire_fields_matter_items :
    itemsSchema.SameOnWire cachedItems bareItems ∧
    itemsSchema.encode cachedItems = itemsSchema.encode bareItems ∧
    itemsSchema.Filled
      (.sequence [.record [("Cache", .array [.flag false, .flag false]),
        ("Id", .num ⟨.uint8, 7⟩), ("Name", .text "")]]) := by
  have hsame : itemsSchema.SameOnWire cachedItems bareItems := by
    refine .sequence rfl (List.forall_mem_singleton.mpr ?_)
    refine .of_get? (by decide) (by decide) ?_
    rintro f (_ | ⟨_, _ | ⟨_, _ | ⟨_, ⟨⟩⟩⟩⟩) hskip
    · cases hskip
    · rfl
    · rfl
  have hread : itemsSchema.reader (.start namelessBytes) =
      .ok (.sequence [.record [("Cache", .array [.flag false, .flag false]),
        ("Id", .num ⟨.uint8, 7⟩), ("Name", .text "")]]) ⟨17, []⟩ := rfl
  obtain ⟨hencode, hfilled⟩ := only_wire_fields_matter itemsSchema
  exact ⟨hsame, hencode _ _ hsame, hfilled _ _ _ hread⟩

end Schema

end SchemaWire
