import SchemaWire.Proofs.Codec.Decoded
import SchemaWire.Proofs.Codec.Marks
import SchemaWire.Proofs.Schema.Built

/-!
Encoding undoes decoding up to canonical form. What was read has an encoding, which is no longer
than the bytes that were read. It is these bytes if every flag in them is zero or one and no map
repeats a key, and it decodes to the same value again.
-/

namespace SchemaWire.Schema

open Reader Stateful

variable {c mid c' : Cursor}

/-! ### Emissions in the place of what was read -/

/-- An emission can stand for the bytes between two cursors: it is no longer than they are, and the
same if the marks in them are canonical. -/
def Replaces (emission : Emission) (marks : List Mark) (c c' : Cursor) : Prop :=
  ∃ bs front, emission = .done bs ∧ c.Passed front c' ∧ bs.length ≤ front.length ∧
    ((∀ m ∈ marks, m.Canonical) → bs = front)

theorem replaces_done {bs : Bytes} {marks : List Mark} (hpassed : c.Passed bs c') :
    Replaces (.done bs) marks c c' :=
  ⟨bs, bs, rfl, hpassed, Nat.le_refl _, fun _ => rfl⟩

theorem Replaces.andThen {first second : Emission} {marks marks' : List Mark}
    (hfirst : Replaces first marks c mid) (hsecond : Replaces second marks' mid c') :
    Replaces (first.andThen second) (marks ++ marks') c c' := by
  obtain ⟨bs, front, hbs, hpassed, hle, hmarks⟩ := hfirst
  obtain ⟨bs', front', hbs', hpassed', hle', hmarks'⟩ := hsecond
  refine ⟨bs ++ bs', front ++ front', ?_, hpassed.trans hpassed', ?_, fun h => ?_⟩
  · exact Emission.andThen_eq_done.mpr ⟨bs, bs', hbs, hbs', rfl⟩
  · simp only [List.length_append]
    omega
  · rw [List.forall_mem_append] at h
    rw [hmarks h.1, hmarks' h.2]

theorem Replaces.each {α : Type} {item : Reader α} {marks : Cursor → List Mark}
    {emission : α → Emission}
    (h : ∀ {a c c'}, item c = .ok a c' → Replaces (emission a) (marks c) c c')
    {as : List α} (hchain : Chain item c as c') :
    Replaces (.each emission as) (afterEach item marks as.length c) c c' := by
  induction hchain with
  | nil c => exact replaces_done (Cursor.passed_nil.mpr rfl)
  | cons ha _ ih =>
      rw [List.length_cons, afterEach_of_ok ha]
      exact (h ha).andThen ih

def HasEncoding (schema : Schema) (value : Value) : Prop := ∃ bs, schema.emit value = .done bs

theorem exists_emitEntries {key val : Schema} {entries : Entries}
    (h : ∀ e ∈ entries, key.HasEncoding e.1 ∧ val.HasEncoding e.2) :
    ∃ bs, Emission.each (emitEntry key val) entries = .done bs ∧ bs.length =
      entries.weight (fun k => (key.emit k).bytes.length) (fun v => (val.emit v).bytes.length) := by
  induction entries with
  | nil => exact ⟨[], rfl, rfl⟩
  | cons e entries ih =>
      obtain ⟨⟨⟨front, hfront⟩, back, hback⟩, htail⟩ := List.forall_mem_cons.mp h
      obtain ⟨rest, hrest, hlen⟩ := ih htail
      have hentry : emitEntry key val e = .done (front ++ back) :=
        Emission.andThen_eq_done.mpr ⟨front, back, hfront, hback, rfl⟩
      refine ⟨front ++ back ++ rest, ?_, ?_⟩
      · exact Emission.andThen_eq_done.mpr ⟨front ++ back, rest, hentry, hrest, rfl⟩
      · simp [Entries.weight, hfront, hback, hlen, Emission.done, Nat.add_assoc]

theorem Replaces.hasEncoding {schema : Schema} {value : Value} {marks : List Mark}
    (h : Replaces (schema.emit value) marks c c') : schema.HasEncoding value := by
  obtain ⟨bs, -, hbs, -⟩ := h
  exact ⟨bs, hbs⟩

theorem replaces_map {key val : Schema} {name : Option String} {entries : Entries}
    (hlt : entries.length < 2 ^ 63) (hlength : c.Passed (Bytes.ofLength entries.length) mid)
    (hchain : Chain (readEntry key val) mid entries c')
    (hkey : ∀ {v c c'}, key.read [] c = .ok v c' → Replaces (key.emit v) (key.marks c) c c')
    (hval : ∀ {v c c'}, val.read [] c = .ok v c' → Replaces (val.emit v) (val.marks c) c c') :
    Replaces (emit (.map key val name) (.map entries.fold)) (marks (.map key val name) c) c c' := by
  have hentry : ∀ {e c c'}, readEntry key val c = .ok e c' →
      Replaces (emitEntry key val e) (entryMarks key val c) c c' := by
    intro e c c' he
    obtain ⟨mid, hreadKey, hreadVal⟩ := readEntry_eq_ok.mp he
    rw [entryMarks_of_ok hreadKey]
    exact (hkey hreadKey).andThen (hval hreadVal)
  have hdone : ∀ e ∈ entries, key.HasEncoding e.1 ∧ val.HasEncoding e.2 :=
    forall_of_entries (fun h => (hkey h).hasEncoding) (fun h => (hval h).hasEncoding) hchain
  obtain ⟨body, front, hbody, hpassed, hle, hmarks⟩ := Replaces.each hentry hchain
  obtain ⟨body', hbody', hsize⟩ := exists_emitEntries hdone
  obtain rfl : body' = body := Emission.done_inj.mp (hbody'.symm.trans hbody)
  -- The folded entries are made of the same keys and values, so they take no more room.
  obtain ⟨folded, hfolded, hsize'⟩ := exists_emitEntries (Entries.forall_fold hdone)
  have hlight := Entries.weight_fold_le (fun k => (key.emit k).bytes.length)
    (fun v => (val.emit v).bytes.length) entries
  rw [marks_map hlt hlength hchain]
  refine ⟨Bytes.ofLength entries.fold.length ++ folded, Bytes.ofLength entries.length ++ front,
    emit_map_eq_done.mpr ⟨entries.fold, folded, rfl, hfolded, rfl⟩, hlength.trans hpassed, ?_,
    fun h => ?_⟩
  · simp only [List.length_append, Bytes.length_ofLength]
    omega
  · -- No key repeats, so that folding leaves all entries.
    obtain ⟨hkeys, hrest⟩ := List.forall_mem_cons.mp h
    have hdistinct : entries.fold = entries := Entries.fold_of_distinct hkeys
    rw [hdistinct] at hfolded ⊢
    obtain rfl : folded = body' := Emission.done_inj.mp (hfolded.symm.trans hbody')
    rw [hmarks hrest]

theorem replaces_fields {fields : FieldList} {values rest : Fields}
    (hfield : ∀ f ∈ fields, ∀ {gate : List Constraint} {v : Value} {c c' : Cursor},
      f.type.read gate c = .ok v c' → Replaces (f.type.emit v) (f.type.marks c) c c')
    (hget : ∀ e ∈ rest, Fields.get? e.1 values = some e.2)
    (h : readFields fields c = .ok rest c') :
    Replaces (emitFields fields values) (fieldMarks fields c) c c' := by
  induction fields generalizing c rest with
  | nil =>
      obtain ⟨-, rfl⟩ := readFields_nil_eq_ok.mp h
      exact replaces_done (Cursor.passed_nil.mpr rfl)
  | cons f fields ih =>
      obtain ⟨v, mid, rest, rfl, hread, hrest⟩ := readFields_cons_eq_ok.mp h
      have htail := ih (fun g hg => hfield g (List.mem_cons_of_mem f hg))
        (fun e he => hget e (List.mem_cons_of_mem _ he)) hrest
      rw [fieldMarks_of_ok hread]
      cases hskip : f.skip with
      | true =>
          rw [readField_of_skip hskip] at hread
          obtain ⟨-, rfl⟩ := pure_eq_ok.mp hread
          rw [emitFields_of_skip hskip]
          exact htail
      | false =>
          have hhead := hfield f List.mem_cons_self ((readField_eq_ok hskip).mp hread).1
          rw [emitFields_of_get? hskip (hget (f.name, v) List.mem_cons_self)]
          exact hhead.andThen htail

/-- What was read has an encoding, which can stand for what was read. -/
theorem replaces_of_read {schema : Schema} {gate : List Constraint} {value : Value}
    (hnames : schema.DistinctNames) (h : schema.read gate c = .ok value c') :
    Replaces (schema.emit value) (schema.marks c) c c' := by
  induction schema generalizing gate value c c' with
  | scalar k name =>
      cases k with
      | string =>
          obtain ⟨s, mid, rfl, -, hlength, htext⟩ := read_string_eq_ok.mp h
          exact replaces_done (hlength.trans htext)
      | bool =>
          obtain ⟨x, rfl, hpassed⟩ := read_bool_eq_ok.mp h
          rw [marks_bool hpassed]
          -- A flag is written as zero or one, whatever byte it was.
          refine ⟨_, [x], rfl, hpassed, Nat.le_refl _, fun h => ?_⟩
          rcases h _ (List.mem_singleton.mpr rfl) with rfl | rfl <;> rfl
      | num k =>
          obtain ⟨w, rfl, hpassed⟩ := read_num_eq_ok.mp h
          rw [emit_num_eq_done.mpr ⟨w, rfl, rfl⟩]
          exact replaces_done hpassed
  | optional elem ih =>
      obtain ⟨rfl, hpassed⟩ | ⟨x, mid, inner, hx, rfl, hpassed, hinner⟩ :=
        read_optional_eq_ok.mp h
      · exact replaces_done hpassed
      · rw [marks_present hx hpassed]
        have hflag : Replaces (.done [1]) [.flag x] c mid := by
          refine ⟨[1], [x], rfl, hpassed, Nat.le_refl _, fun h => ?_⟩
          rcases h _ (List.mem_singleton.mpr rfl) with rfl | rfl
          · exact (hx rfl).elim
          · rfl
        exact hflag.andThen (ih hnames hinner)
  | array n elem name ih =>
      obtain ⟨items, rfl, rfl, hchain⟩ := read_array_eq_ok.mp h
      rw [emit, if_pos rfl, marks]
      exact .each (ih hnames) hchain
  | sequence elem name ih =>
      obtain ⟨items, mid, rfl, hannounce, hlength, hchain⟩ := read_sequence_eq_ok.mp h
      rw [emit, marks_sequence (lt_of_announces hannounce) hlength]
      have hprefix : Replaces (.done (Bytes.ofLength items.length)) [] c mid :=
        replaces_done hlength
      exact hprefix.andThen (.each (ih hnames) hchain)
  | map key val name ihkey ihval =>
      obtain ⟨entries, mid, rfl, hannounce, hlength, hchain⟩ := read_map_eq_ok.mp h
      exact replaces_map (lt_of_announces hannounce) hlength hchain (ihkey hnames.1)
        (ihval hnames.2)
  | bytes name =>
      obtain ⟨bs, mid, rfl, -, hlength, hbody⟩ := read_bytes_eq_ok.mp h
      exact replaces_done (hlength.trans hbody)
  | record name fields ih =>
      obtain ⟨values, rfl, hfields⟩ := read_record_eq_ok.mp h
      refine replaces_fields (fun f hf => ?_) (get?_of_readFields hnames.1 hfields) hfields
      exact ih f hf (eachField_iff.mp hnames.2 f hf)

/-! ### Reading again -/

/-- No map has to have a least number of entries, be it inside an optional or not. -/
def NoLeastMap (fields : FieldList) : Prop :=
  ∀ f ∈ fields, f.skip = false → f.type.inner.form = .map →
    ∀ k ∈ f.constraints, ∀ least, k.rule ≠ .minLen least

theorem announces_of_le {gate : List Constraint} {m n : Nat} (hle : m ≤ n)
    (hgate : ∀ k ∈ gate, ∀ least, k.rule ≠ .minLen least) (h : announces gate n = true) :
    announces gate m = true := by
  rw [announces, Bool.and_eq_true, decide_eq_true_eq, List.all_eq_true] at h ⊢
  refine ⟨by omega, fun k hk => ?_⟩
  have hadmits := h.2 k hk
  cases hrule : k.rule with
  | minLen least => exact (hgate k hk least hrule).elim
  | maxLen most =>
      rw [hrule, Rule.admitsLength, decide_eq_true_eq] at hadmits
      rw [Rule.admitsLength, decide_eq_true_eq]
      omega
  | _ => rfl

theorem inner_of_isPrefixed {schema : Schema} (h : schema.isPrefixed = true) :
    schema.inner = schema := by
  cases schema with
  | optional elem => cases h
  | _ => rfl

/-- What was read passes the checks of reading again. Only the number of entries in a map may have
become less on the way. -/
theorem readable_of_read {schema : Schema} {gate : List Constraint} {value : Value}
    (hnames : schema.DistinctNames) (hmaps : schema.EachRecord NoLeastMap)
    (hgate : schema.inner.form = .map → ∀ k ∈ gate, ∀ least, k.rule ≠ .minLen least)
    (h : schema.read gate c = .ok value c') : schema.readable gate value = true := by
  induction schema generalizing gate value c c' with
  | scalar k name =>
      cases k with
      | string =>
          obtain ⟨s, mid, rfl, hannounce, -, -⟩ := read_string_eq_ok.mp h
          exact hannounce
      | bool | num => cases value <;> rfl
  | optional elem ih =>
      rcases read_optional_eq_ok.mp h with ⟨rfl, -⟩ | ⟨x, mid, inner, -, rfl, -, hinner⟩
      · rfl
      · refine ih hnames hmaps (fun hform => ?_) hinner
        split
        · next hprefixed =>
          rw [inner_of_isPrefixed hprefixed] at hform
          exact hgate hform
        · simp
  | array n elem name ih =>
      obtain ⟨items, rfl, -, hchain⟩ := read_array_eq_ok.mp h
      rw [readable, List.all_eq_true]
      exact forall_of_chain (ih hnames hmaps (by simp)) hchain
  | sequence elem name ih =>
      obtain ⟨items, mid, rfl, hannounce, -, hchain⟩ := read_sequence_eq_ok.mp h
      rw [readable, Bool.and_eq_true, List.all_eq_true]
      exact ⟨hannounce, forall_of_chain (ih hnames hmaps (by simp)) hchain⟩
  | map key val name ihkey ihval =>
      obtain ⟨entries, mid, rfl, hannounce, -, hchain⟩ := read_map_eq_ok.mp h
      have hentries := forall_of_entries (ihkey hnames.1 hmaps.1 (by simp))
        (ihval hnames.2 hmaps.2 (by simp)) hchain
      simp only [readable, Bool.and_eq_true, List.all_eq_true]
      constructor
      · exact announces_of_le (Entries.length_fold_le entries) (hgate rfl) hannounce
      · exact @Entries.forall_fold (key.readable [] · = true) (val.readable [] · = true) entries
          hentries
  | bytes name =>
      obtain ⟨bs, mid, rfl, hannounce, -, -⟩ := read_bytes_eq_ok.mp h
      exact hannounce
  | record name fields ih =>
      obtain ⟨values, rfl, hfields⟩ := read_record_eq_ok.mp h
      rw [readable, readableFields_iff]
      intro f hf hskip w hw
      obtain ⟨v, mid, mid', hget, hread⟩ := exists_of_readFields hnames.1 hfields f hf
      obtain rfl : w = v := Option.some_inj.mp (hw.symm.trans hget)
      obtain ⟨hread, hchecks⟩ := (readField_eq_ok hskip).mp hread
      refine ⟨ih f hf (eachField_iff.mp hnames.2 f hf) (eachField_iff.mp hmaps.2 f hf)
        (fun hform k hk => ?_) hread, hchecks⟩
      exact hmaps.1 f hf hskip hform k (List.mem_filter.mp hk).1

theorem Buildable.noLeastMap {schema : Schema} (h : schema.Buildable) :
    schema.EachRecord NoLeastMap := by
  refine h.measured.mono fun fields hmeasured f hf _ hform k hk least hrule => ?_
  have happlies := hmeasured f hf k hk (by rw [Constraint.boundsLength, hrule]; rfl)
  rw [RuleKind.appliesTo] at happlies
  cases hinner : f.type.inner with
  | map key val name =>
      rw [hinner] at happlies
      cases happlies
  | _ =>
      rw [hinner] at hform
      cases hform

variable {schema : Schema} {input : Bytes} {value : Value}

/-- What decodes has an encoding that is no longer than what was read, and that is what was read if
the marks in it are canonical. The encoding decodes to the same value and is used up, unless it is
a map that has become too short for its constraints. -/
theorem encode_decode (hnames : schema.DistinctNames)
    (hdecode : schema.reader (.start input) = .ok value c) :
    ∃ bs, schema.encode value = .ok bs ∧ bs.length ≤ c.offset ∧
      (schema.EachRecord NoLeastMap → schema.reader (.start bs) = .ok value ⟨bs.length, []⟩) ∧
      ((∀ m ∈ schema.marks (.start input), m.Canonical) → bs = input.take c.offset) := by
  obtain ⟨bs, front, hemit, ⟨hinput, hoffset⟩, hle, hcanonical⟩ := replaces_of_read hnames hdecode
  have hfront : c.offset = front.length := hoffset.trans (Nat.zero_add _)
  refine ⟨bs, encode_eq_ok.mpr hemit, by rw [hfront]; exact hle, fun hmaps => ?_, fun hmarks => ?_⟩
  · have hreadable := readable_of_read hnames hmaps (by simp) hdecode
    have hagain := readsBack schema hemit hreadable (Cursor.passed_start bs)
    rw [norm_of_normal hnames (normal_of_read hdecode)] at hagain
    exact hagain
  · have hsplit : input = front ++ c.rest := hinput
    rw [hcanonical hmarks, hsplit, hfront, List.take_left]

def switchSchema : Schema := .record none [⟨"On", .optional (.scalar .bool none), false, []⟩]

theorem encode_decode_switch :
    switchSchema.reader (.start [1, 0, 9]) =
        .ok (.record [("On", .present (.flag false))]) ⟨2, [9]⟩ ∧
      ∃ bs, switchSchema.encode (.record [("On", .present (.flag false))]) = .ok bs ∧
        switchSchema.reader (.start bs) =
          .ok (.record [("On", .present (.flag false))]) ⟨bs.length, []⟩ ∧ bs = [1, 0] := by
  have hnames : switchSchema.DistinctNames := ⟨by decide, trivial, trivial⟩
  have hdecode : switchSchema.reader (.start [1, 0, 9]) =
      .ok (.record [("On", .present (.flag false))]) ⟨2, [9]⟩ := rfl
  have hmaps : switchSchema.EachRecord NoLeastMap := by
    refine ⟨fun f hf _ _ => ?_, trivial, trivial⟩
    obtain rfl := List.mem_singleton.mp hf
    nofun
  have hmarks : ∀ m ∈ switchSchema.marks (.start [1, 0, 9]), m.Canonical := by
    have heq : switchSchema.marks (.start [1, 0, 9]) = [.flag 1, .flag 0] := rfl
    rw [heq]
    simp [Mark.Canonical]
  obtain ⟨bs, hencode, -, hagain, hcanonical⟩ := encode_decode hnames hdecode
  exact ⟨hdecode, bs, hencode, hagain hmaps, hcanonical hmarks⟩

/-! ### A map that becomes too short -/

def pairsBound : Constraint := ⟨"Pairs", .minLen 2, false⟩

/-- A record that no builder returns: its map has to have two entries. -/
def pairsSchema : Schema :=
  .record none
    [⟨"Pairs", .map (.scalar (.num .uint8) none) (.scalar .bool none) none, false, [pairsBound]⟩]

def pairsBytes : Bytes := [4, 0, 0, 0, 0, 0, 0, 0, 7, 1, 7, 0]

/-- Two entries with one key are two on the wire and one in the value, whose encoding is refused. -/
theorem decode_encode_pairs :
    pairsSchema.DistinctNames ∧ ∃ value again,
      pairsSchema.reader (.start pairsBytes) = .ok value ⟨12, []⟩ ∧
      pairsSchema.encode value = .ok again ∧
      pairsSchema.reader (.start again) = .error (.violation pairsBound) ⟨8, [7, 0]⟩ := by
  have hemit : pairsSchema.emit (.record [("Pairs",
      .map [(.num ⟨.uint8, 7⟩, .flag true), (.num ⟨.uint8, 7⟩, .flag false)])]) =
      .done pairsBytes := rfl
  refine ⟨⟨by decide, ⟨trivial, trivial⟩, trivial⟩,
    .record [("Pairs", .map [(.num ⟨.uint8, 7⟩, .flag false)])],
    [2, 0, 0, 0, 0, 0, 0, 0, 7, 0], ?_, rfl, rfl⟩
  exact readsBack pairsSchema hemit rfl (Cursor.passed_start pairsBytes)

end SchemaWire.Schema
