import SchemaWire.Proofs.Codec.Decoded
import SchemaWire.Proofs.Codec.Marks
import SchemaWire.Proofs.Codec.RoundTrip
import SchemaWire.Proofs.Schema.Built

/-!
Reading with constraints is reading without them and then checking every record of the value. The
reader checks bounds on a length before it knows the value and everything else afterwards; the two
ways agree on every schema of the builder, since it attaches bounds only where there is a length.
-/

namespace SchemaWire.Schema

open Reader Stateful

variable {schema : Schema} {gate : List Constraint} {value : Value} {c c' : Cursor}

/-! ### What was read with constraints reads without them -/

theorem announces_nil_of_announces {n : Nat} (h : announces gate n = true) :
    announces [] n = true :=
  announces_nil.mpr (lt_of_announces h)

theorem chain_mono {α : Type} {item item' : Reader α}
    (h : ∀ {a c c'}, item c = .ok a c' → item' c = .ok a c') {as : List α}
    (hchain : Chain item c as c') : Chain item' c as c' := by
  induction hchain with
  | nil c => exact .nil c
  | cons ha _ ih => exact .cons (h ha) ih

theorem read_strip_of_read (h : schema.read gate c = .ok value c') :
    schema.strip.read [] c = .ok value c' := by
  induction schema generalizing gate value c c' with
  | scalar k name =>
      cases k with
      | string =>
          obtain ⟨s, mid, rfl, hannounce, hlength, htext⟩ := read_string_eq_ok.mp h
          exact read_string_eq_ok.mpr
            ⟨s, mid, rfl, announces_nil_of_announces hannounce, hlength, htext⟩
      | bool => exact read_bool_eq_ok.mpr (read_bool_eq_ok.mp h)
      | num k => exact read_num_eq_ok.mpr (read_num_eq_ok.mp h)
  | optional elem ih =>
      refine read_optional_eq_ok.mpr ?_
      rcases read_optional_eq_ok.mp h with habsent | ⟨x, mid, inner, hx, hv, hpassed, hinner⟩
      · exact .inl habsent
      · rw [ite_self]
        exact .inr ⟨x, mid, inner, hx, hv, hpassed, ih hinner⟩
  | array n elem name ih =>
      obtain ⟨items, rfl, hlen, hchain⟩ := read_array_eq_ok.mp h
      exact read_array_eq_ok.mpr ⟨items, rfl, hlen, chain_mono ih hchain⟩
  | sequence elem name ih =>
      obtain ⟨items, mid, rfl, hannounce, hlength, hchain⟩ := read_sequence_eq_ok.mp h
      exact read_sequence_eq_ok.mpr
        ⟨items, mid, rfl, announces_nil_of_announces hannounce, hlength, chain_mono ih hchain⟩
  | map key val name ihkey ihval =>
      obtain ⟨entries, mid, rfl, hannounce, hlength, hchain⟩ := read_map_eq_ok.mp h
      refine read_map_eq_ok.mpr
        ⟨entries, mid, rfl, announces_nil_of_announces hannounce, hlength, ?_⟩
      refine chain_mono (fun {e c c'} he => ?_) hchain
      obtain ⟨mid, hkey, hval⟩ := readEntry_eq_ok.mp he
      exact readEntry_eq_ok.mpr ⟨mid, ihkey hkey, ihval hval⟩
  | bytes name =>
      obtain ⟨bs, mid, rfl, hannounce, hlength, hbody⟩ := read_bytes_eq_ok.mp h
      exact read_bytes_eq_ok.mpr
        ⟨bs, mid, rfl, announces_nil_of_announces hannounce, hlength, hbody⟩
  | record name fields ih =>
      obtain ⟨values, rfl, hfields⟩ := read_record_eq_ok.mp h
      refine read_record_eq_ok.mpr ⟨values, rfl, ?_⟩
      clear h
      induction fields generalizing values c with
      | nil => exact hfields
      | cons f fields ihfields =>
          obtain ⟨v, mid, rest, rfl, hfield, hrest⟩ := readFields_cons_eq_ok.mp hfields
          have hrest' := ihfields (fun g hg => ih g (List.mem_cons_of_mem f hg)) rest hrest
          refine readFields_cons_eq_ok.mpr ⟨v, mid, rest, rfl, ?_, hrest'⟩
          cases hskip : f.skip with
          | true =>
              rw [readField_of_skip hskip] at hfield
              rw [readField_of_skip rfl, zero_strip]
              exact hfield
          | false =>
              rw [readField_eq_ok rfl]
              have hread := ((readField_eq_ok hskip).mp hfield).1
              exact ⟨ih f List.mem_cons_self hread, rfl⟩

/-! ### What was read is accepted -/

theorem form_of_normal (h : schema.Normal value) : value.form = schema.form := by
  cases schema with
  | scalar k name =>
      cases k <;> cases value <;>
        first | rfl | exact h.elim | exact congrArg (fun k => Form.scalar (.num k)) h
  | _ => cases value <;> first | rfl | exact h.elim

theorem accepts_of_admitsLength {k : Constraint} (hbounds : k.boundsLength = true) {n : Nat}
    (hlen : value.length? = some n) (hadmits : k.rule.admitsLength n = true) :
    k.accepts value = true := by
  have hvalue : k.rule.acceptsValue value = true := by
    obtain ⟨field, rule, optional⟩ := k
    cases rule with
    | minLen | maxLen => simpa [Rule.acceptsValue, Rule.admitsLength, hlen] using hadmits
    | _ => cases hbounds
  cases value with
  | absent => rfl
  | present => cases hlen
  | _ => exact hvalue

theorem forall_accepts_of_announces {n : Nat} (hlen : value.length? = some n)
    (hbounds : ∀ k ∈ gate, k.boundsLength = true) (h : announces gate n = true) :
    ∀ k ∈ gate, k.accepts value = true := by
  rw [announces, Bool.and_eq_true, List.all_eq_true] at h
  exact fun k hk => accepts_of_admitsLength (hbounds k hk) hlen (h.2 k hk)

theorem gate_accepts_of_applies (happlies : RuleKind.minLen.appliesToInner schema = true)
    (hbounds : ∀ k ∈ gate, k.boundsLength = true) (h : schema.read gate c = .ok value c') :
    ∀ k ∈ gate, k.accepts value = true := by
  cases schema with
  | scalar k name =>
      cases k with
      | string =>
          obtain ⟨s, mid, rfl, hannounce, -, -⟩ := read_string_eq_ok.mp h
          exact forall_accepts_of_announces rfl hbounds hannounce
      | bool | num => cases happlies
  | sequence elem name =>
      obtain ⟨items, mid, rfl, hannounce, -, -⟩ := read_sequence_eq_ok.mp h
      exact forall_accepts_of_announces rfl hbounds hannounce
  | bytes name =>
      obtain ⟨bs, mid, rfl, hannounce, -, -⟩ := read_bytes_eq_ok.mp h
      exact forall_accepts_of_announces rfl hbounds hannounce
  | optional | array | map | record => cases happlies

theorem gate_accepts_of_read (hbounds : ∀ k ∈ gate, k.boundsLength = true)
    (happlies : ∀ k ∈ gate, RuleKind.minLen.appliesTo schema = true)
    (h : schema.read gate c = .ok value c') : ∀ k ∈ gate, k.accepts value = true := by
  intro k hk
  have happlies := happlies k hk
  cases schema with
  | optional elem =>
      rcases read_optional_eq_ok.mp h with ⟨rfl, -⟩ | ⟨x, mid, inner, -, rfl, -, hinner⟩
      · rfl
      · have hprefixed : elem.isPrefixed = true := by
          cases elem with
          | scalar kind name => cases kind <;> first | rfl | cases happlies
          | optional | array | record => cases happlies
          | _ => rfl
        have hform : inner.form ≠ .optional :=
          form_of_normal (normal_of_read hinner) ▸ form_ne_optional hprefixed
        rw [if_pos hprefixed] at hinner
        rw [accepts_present hform]
        exact gate_accepts_of_applies happlies hbounds hinner k hk
  | _ => exact gate_accepts_of_applies happlies hbounds h k hk

theorem constraints_accept_of_readField {f : Field Schema} (hskip : f.skip = false)
    (hmeasured : ∀ k ∈ f.constraints, k.boundsLength = true →
      RuleKind.minLen.appliesTo f.type = true)
    (h : readField f c = .ok value c') : f.constraints.all (·.accepts value) = true := by
  obtain ⟨hread, hchecks⟩ := (readField_eq_ok hskip).mp h
  rw [List.all_eq_true] at hchecks ⊢
  intro k hk
  -- Bounds were checked on the length prefix, all else on the value itself.
  cases hbounds : k.boundsLength with
  | true =>
      have hgates : ∀ k ∈ f.gates, k ∈ f.constraints ∧ k.boundsLength = true :=
        fun k hk => List.mem_filter.mp hk
      refine gate_accepts_of_read (fun k hk => (hgates k hk).2) (fun k hk => ?_) hread k
        (List.mem_filter.mpr ⟨hk, hbounds⟩)
      exact hmeasured k (hgates k hk).1 (hgates k hk).2
  | false => exact hchecks k (List.mem_filter.mpr ⟨hk, by rw [hbounds]; rfl⟩)

theorem accepts_of_read (hnames : schema.DistinctNames) (hmeasured : schema.EachRecord Measured)
    (h : schema.read gate c = .ok value c') : schema.accepts value = true := by
  induction schema generalizing gate value c c' with
  | scalar | bytes => rfl
  | optional elem ih =>
      rcases read_optional_eq_ok.mp h with ⟨rfl, -⟩ | ⟨x, mid, inner, -, rfl, -, hinner⟩
      · rfl
      · exact ih hnames hmeasured hinner
  | array n elem name ih =>
      obtain ⟨items, rfl, -, hchain⟩ := read_array_eq_ok.mp h
      rw [accepts, List.all_eq_true]
      exact forall_of_chain (ih hnames hmeasured) hchain
  | sequence elem name ih =>
      obtain ⟨items, mid, rfl, -, -, hchain⟩ := read_sequence_eq_ok.mp h
      rw [accepts, List.all_eq_true]
      exact forall_of_chain (ih hnames hmeasured) hchain
  | map key val name ihkey ihval =>
      obtain ⟨entries, mid, rfl, -, -, hchain⟩ := read_map_eq_ok.mp h
      simp only [accepts, List.all_eq_true, Bool.and_eq_true]
      have hentries := forall_of_entries (ihkey hnames.1 hmeasured.1) (ihval hnames.2 hmeasured.2)
        hchain
      exact @Entries.forall_fold (key.accepts · = true) (val.accepts · = true) entries hentries
  | record name fields ih =>
      obtain ⟨values, rfl, hfields⟩ := read_record_eq_ok.mp h
      rw [accepts, acceptsFields_iff]
      intro f hf hskip
      obtain ⟨v, mid, mid', hget, hread⟩ := exists_of_readFields hnames.1 hfields f hf
      refine ⟨v, hget, constraints_accept_of_readField hskip (hmeasured.1 f hf) hread, ?_⟩
      exact ih f hf (eachField_iff.mp hnames.2 f hf) (eachField_iff.mp hmeasured.2 f hf)
        ((readField_eq_ok hskip).mp hread).1

/-! ### What is accepted reads with constraints -/

theorem chain_of_marks {α : Type} {item item' : Reader α} {marks : Cursor → List Mark}
    {P : Mark → Prop} {Q : α → Prop}
    (h : ∀ {a c c'}, item c = .ok a c' → (∀ m ∈ marks c, P m) → Q a → item' c = .ok a c')
    {as : List α} (hchain : Chain item c as c')
    (hmarks : ∀ m ∈ afterEach item marks as.length c, P m) (hQ : ∀ a ∈ as, Q a) :
    Chain item' c as c' := by
  induction hchain with
  | nil c => exact .nil c
  | cons ha _ ih =>
      rw [List.length_cons, afterEach_of_ok ha, List.forall_mem_append] at hmarks
      obtain ⟨hhead, htail⟩ := List.forall_mem_cons.mp hQ
      exact .cons (h ha hmarks.1 hhead) (ih hmarks.2 htail)

/-- The fields of a record that reads without constraints. `rest` is what is left of the record,
`values` all of it. -/
theorem readFields_of_strip {fields : FieldList} {values rest : Fields}
    (hfield : ∀ f ∈ fields, ∀ {gate : List Constraint} {v : Value} {c c' : Cursor},
      f.type.strip.read [] c = .ok v c' → (∀ m ∈ f.type.strip.marks c, m.Unrepeated) →
      f.type.accepts v = true → (∀ k ∈ gate, k.boundsLength = true ∧ k.accepts v = true) →
      f.type.read gate c = .ok v c')
    (hget : ∀ e ∈ rest, Fields.get? e.1 values = some e.2)
    (hmarks : ∀ m ∈ fieldMarks (stripFields fields) c, m.Unrepeated)
    (haccepts : ∀ f ∈ fields, f.skip = false → ∃ v, values.get? f.name = some v ∧
      f.constraints.all (·.accepts v) = true ∧ f.type.accepts v = true)
    (h : readFields (stripFields fields) c = .ok rest c') : readFields fields c = .ok rest c' := by
  induction fields generalizing c rest with
  | nil => exact h
  | cons f fields ih =>
      obtain ⟨v, mid, rest, rfl, hread, hrest⟩ := readFields_cons_eq_ok.mp h
      obtain ⟨haccept, haccepts⟩ := List.forall_mem_cons.mp haccepts
      rw [stripFields, fieldMarks_of_ok hread, List.forall_mem_append] at hmarks
      have hrest := ih (fun g hg => hfield g (List.mem_cons_of_mem f hg))
        (fun e he => hget e (List.mem_cons_of_mem _ he)) hmarks.2 haccepts hrest
      refine readFields_cons_eq_ok.mpr ⟨v, mid, rest, rfl, ?_, hrest⟩
      cases hskip : f.skip with
      | true =>
          rw [hskip, readField_of_skip rfl, zero_strip] at hread
          rw [readField_of_skip hskip]
          exact hread
      | false =>
          obtain ⟨w, hw, hconstraints, htype⟩ := haccept hskip
          obtain rfl : w = v :=
            Option.some_inj.mp (hw.symm.trans (hget (f.name, v) List.mem_cons_self))
          rw [hskip, readField_eq_ok rfl] at hread
          rw [hskip] at hmarks
          rw [List.all_eq_true] at hconstraints
          rw [readField_eq_ok hskip, List.all_eq_true]
          constructor
          · refine hfield f List.mem_cons_self hread.1 hmarks.1 htype fun k hk => ?_
            obtain ⟨hmem, hbounds⟩ := List.mem_filter.mp hk
            exact ⟨hbounds, hconstraints k hmem⟩
          · exact fun k hk => hconstraints k (List.mem_filter.mp hk).1

/-- What reads without constraints, repeats no key and is accepted reads with constraints. -/
theorem read_of_strip (hnames : schema.DistinctNames)
    (h : schema.strip.read [] c = .ok value c')
    (hmarks : ∀ m ∈ schema.strip.marks c, m.Unrepeated) (haccepts : schema.accepts value = true)
    (hgate : ∀ k ∈ gate, k.boundsLength = true ∧ k.accepts value = true) :
    schema.read gate c = .ok value c' := by
  induction schema generalizing gate value c c' with
  | scalar k name =>
      cases k with
      | string =>
          obtain ⟨s, mid, rfl, hannounce, hlength, htext⟩ := read_string_eq_ok.mp h
          have hannounce := announces_of_accepts rfl (lt_of_announces hannounce)
            fun k hk => (hgate k hk).2
          exact read_string_eq_ok.mpr ⟨s, mid, rfl, hannounce, hlength, htext⟩
      | bool => exact read_bool_eq_ok.mpr (read_bool_eq_ok.mp h)
      | num k => exact read_num_eq_ok.mpr (read_num_eq_ok.mp h)
  | optional elem ih =>
      refine read_optional_eq_ok.mpr ?_
      rcases read_optional_eq_ok.mp h with habsent | ⟨x, mid, inner, hx, rfl, hpassed, hinner⟩
      · exact .inl habsent
      · rw [ite_self] at hinner
        rw [strip, marks_present hx hpassed, List.forall_mem_cons] at hmarks
        refine .inr ⟨x, mid, inner, hx, rfl, hpassed, ih hnames hinner hmarks.2 haccepts ?_⟩
        split
        · next hprefixed =>
          have hform : inner.form ≠ .optional := by
            rw [form_of_normal (normal_of_read hinner)]
            exact form_ne_optional (by rw [isPrefixed_strip, hprefixed])
          intro k hk
          rw [← accepts_present hform]
          exact hgate k hk
        · simp
  | array n elem name ih =>
      obtain ⟨items, rfl, rfl, hchain⟩ := read_array_eq_ok.mp h
      rw [accepts, List.all_eq_true] at haccepts
      rw [strip, marks] at hmarks
      refine read_array_eq_ok.mpr ⟨items, rfl, rfl, ?_⟩
      exact chain_of_marks (fun ha hm hQ => ih hnames ha hm hQ (by simp)) hchain hmarks haccepts
  | sequence elem name ih =>
      obtain ⟨items, mid, rfl, hannounce, hlength, hchain⟩ := read_sequence_eq_ok.mp h
      have hlt := lt_of_announces hannounce
      rw [accepts, List.all_eq_true] at haccepts
      rw [strip, marks_sequence hlt hlength] at hmarks
      have hlen : (Value.sequence items).length? = some items.length := rfl
      have hannounce := announces_of_accepts hlen hlt fun k hk => (hgate k hk).2
      refine read_sequence_eq_ok.mpr ⟨items, mid, rfl, hannounce, hlength, ?_⟩
      exact chain_of_marks (fun ha hm hQ => ih hnames ha hm hQ (by simp)) hchain hmarks haccepts
  | map key val name ihkey ihval =>
      obtain ⟨entries, mid, rfl, hannounce, hlength, hchain⟩ := read_map_eq_ok.mp h
      obtain rfl := eq_nil_of_accepts_map hgate
      -- No key repeats, so every entry on the wire is one of the value, and as such accepted.
      rw [strip, marks_map (lt_of_announces hannounce) hlength hchain,
        List.forall_mem_cons] at hmarks
      rw [Entries.fold_of_distinct hmarks.1] at haccepts ⊢
      simp only [accepts, List.all_eq_true, Bool.and_eq_true] at haccepts
      refine read_map_eq_ok.mpr
        ⟨entries, mid, by rw [Entries.fold_of_distinct hmarks.1], hannounce, hlength, ?_⟩
      refine chain_of_marks (fun {e c c'} he hm hQ => ?_) hchain hmarks.2 haccepts
      obtain ⟨mid, hkey, hval⟩ := readEntry_eq_ok.mp he
      rw [entryMarks_of_ok hkey, List.forall_mem_append] at hm
      exact readEntry_eq_ok.mpr
        ⟨mid, ihkey hnames.1 hkey hm.1 hQ.1 (by simp), ihval hnames.2 hval hm.2 hQ.2 (by simp)⟩
  | bytes name =>
      obtain ⟨bs, mid, rfl, hannounce, hlength, hbody⟩ := read_bytes_eq_ok.mp h
      have hlen : (Value.bytes bs).length? = some bs.length := rfl
      have hannounce := announces_of_accepts hlen (lt_of_announces hannounce)
        fun k hk => (hgate k hk).2
      exact read_bytes_eq_ok.mpr ⟨bs, mid, rfl, hannounce, hlength, hbody⟩
  | record name fields ih =>
      obtain ⟨values, rfl, hfields⟩ := read_record_eq_ok.mp h
      have hstrip : ((stripFields fields).map (·.name)).Nodup := by
        rw [map_name_stripFields]
        exact hnames.1
      have hget := get?_of_readFields hstrip hfields
      refine read_record_eq_ok.mpr ⟨values, rfl, ?_⟩
      rw [strip, marks] at hmarks
      have hparts := acceptsFields_iff.mp haccepts
      refine readFields_of_strip (fun f hf => ?_) hget hmarks hparts hfields
      exact ih f hf (eachField_iff.mp hnames.2 f hf)

/-- For every schema of the builder and every input: what decodes also decodes without constraints,
to the same value and the same place, and every constraint accepts its field in it; what decodes
without constraints, repeats no key and is accepted decodes with them; and what does not decode
without constraints does not decode with them. -/
theorem decode_iff_accepts (hbuildable : schema.Buildable) (input : Bytes) :
    (∀ {value c}, schema.reader (.start input) = .ok value c →
      schema.strip.reader (.start input) = .ok value c ∧ schema.accepts value = true) ∧
    (∀ {value c}, schema.strip.reader (.start input) = .ok value c →
      (∀ m ∈ schema.strip.marks (.start input), m.Unrepeated) → schema.accepts value = true →
      schema.reader (.start input) = .ok value c) ∧
    (∀ {fault c}, schema.strip.reader (.start input) = .error fault c →
      ∃ fault' c', schema.reader (.start input) = .error fault' c') := by
  refine ⟨fun h => ?_, fun h hmarks haccepts => ?_, fun hfails => ?_⟩
  · exact ⟨read_strip_of_read h, accepts_of_read hbuildable.distinctNames hbuildable.measured h⟩
  · exact read_of_strip hbuildable.distinctNames h hmarks haccepts (by simp)
  · cases h : schema.reader (.start input) with
    | ok value c =>
        have hstrip : schema.strip.reader (.start input) = .ok value c := read_strip_of_read h
        cases hfails.symm.trans hstrip
    | error fault c => exact ⟨fault, c, rfl⟩

/-- The declaration that the builder turns into `entrySchema`. -/
def entryType : TypeExpr :=
  .struct
    [⟨"Cache", .array 2 (.scalar .bool), "-"⟩,
     ⟨"Name", .pointer (.scalar .string), "minlen = 2, startswith=a"⟩,
     ⟨"Counts", .map (.scalar (.num .uint8)) (.scalar .bool), ""⟩]

theorem decode_iff_accepts_entry :
    build .empty entryType = .ok entrySchema ∧
      entrySchema.strip.reader (.start entryBytes) = .ok (entrySchema.norm entryValue) ⟨23, []⟩ ∧
      entrySchema.accepts (entrySchema.norm entryValue) = true := by
  have hbuild : build .empty entryType = .ok entrySchema := rfl
  have hemit : entrySchema.emit entryValue = .done entryBytes := rfl
  have hread : entrySchema.reader (.start entryBytes) =
      .ok (entrySchema.norm entryValue) ⟨23, []⟩ :=
    readsBack entrySchema hemit rfl (Cursor.passed_start entryBytes)
  have hbuildable : entrySchema.Buildable := ⟨.empty, .inl ⟨entryType, hbuild⟩⟩
  exact ⟨hbuild, (decode_iff_accepts hbuildable entryBytes).1 hread⟩

/-! ### Zero values are not checked -/

def nameField : Field Schema := ⟨"Name", .scalar .string none, false, [⟨"Name", .minLen 2, false⟩]⟩

def cachedType : TypeExpr :=
  .struct [⟨"Cache", .struct [⟨"Name", .scalar .string, "minlen=2"⟩], "-"⟩]

def cachedSchema : Schema := .record none [⟨"Cache", .record none [nameField], true, []⟩]

/-- A record in the zero value of a skipped field need not meet its own constraints. -/
theorem decode_cached :
    build .empty cachedType = .ok cachedSchema ∧
      cachedSchema.reader (.start []) =
        .ok (.record [("Cache", .record [("Name", .text "")])]) ⟨0, []⟩ ∧
      nameField.skip = false ∧ nameField.constraints.all (·.accepts (.text "")) = false :=
  ⟨rfl, rfl, rfl, rfl⟩

end SchemaWire.Schema
