import SchemaWire.Proofs.Schema.Built
import SchemaWire.Proofs.Source.Declared
import SchemaWire.Proofs.Source.SelfContained

/-!
When each record is emitted as itself.

Source refers to a record by its display name, and it is emitted once for each of them. Several
records of a schema may have one display name: the names under which types are registered are
others, and a skipped field may be kept in one place and dropped in another. Then the first record
that is met stands for all of them. So every record is emitted with its own fields exactly if
records of one display name declare the same ones.
-/

namespace SchemaWire

open Stateful Token

namespace SourceFile

/-! ### Layout -/

mutual

/-- Values of the type travel as the schema says; what a record is, the source says. -/
def Carries (file : SourceFile) : SourceType → Schema → Prop
  | .scalar kind, .scalar kind' _ => kind = kind'
  | .optional elem, .optional elem' => file.Carries elem elem'
  | .array n elem, .array n' elem' _ => n = n' ∧ file.Carries elem elem'
  | .sequence elem, .sequence elem' _ => file.Carries elem elem'
  | .map key value, .map key' value' _ => file.Carries key key' ∧ file.Carries value value'
  | .bytes, .bytes _ => True
  | .record name, .record _ fields =>
    ∃ r ∈ file.records, r.name = name ∧ file.CarriesFields r.fields fields
  | _, _ => False

def CarriesFields (file : SourceFile) : List FieldItem → List (Field Schema) → Prop
  | [], [] => True
  | item :: items, ⟨_, type, skip, _⟩ :: fields =>
    item.reading.isSome = !skip ∧ (skip = false → file.Carries item.type type) ∧
      file.CarriesFields items fields
  | _, _ => False

end

/-- The item emits the record of a display name as itself: it declares the record, all that is laid
out for it stands in the source, no other struct of its name is defined there, and it carries what
the schema of the record describes. -/
structure EmitsAs (file : SourceFile) (r : RecordItem) (display : String) (fields : FieldList) :
    Prop where
  declares : r.Declares display fields
  written : r.tokens file.runtime.tokens <:+: file.tokens
  once : (definitions file.tokens).count r.name.text = 1
  carries : file.CarriesFields r.fields fields

def Emits (file : SourceFile) (display : String) (fields : FieldList) : Prop :=
  ∃ r ∈ file.records, file.EmitsAs r display fields

/-- The source was emitted for a schema: its records declare records of the schema, the schema
itself among them, no two of them are spelled alike, and their types name no others. -/
structure Covering (file : SourceFile) (schema : Schema) : Prop where
  runtime : file.runtime.segments ≠ []
  root : ∃ r ∈ file.records, SourceType.ofSchema schema = .ok (.record r.name)
  distinct : (file.records.map (·.name.text)).Nodup
  declares : ∀ r ∈ file.records, ∃ display fields,
    .record (some display) fields ∈ schema.parts ∧ r.Declares display fields
  closed : ∀ r ∈ file.records, ∀ f ∈ r.fields, ∀ id ∈ f.type.names,
    ∃ inner ∈ file.records, inner.name = id

variable {file : SourceFile}

theorem carriesFields_of_heads {items : List FieldItem} {fields : FieldList}
    (h : fields.heads = .ok (items.map FieldItem.head))
    (hcarries : ∀ f ∈ fields, ∀ item ∈ items, f.head = .ok item.head →
      file.Carries item.type f.type) :
    file.CarriesFields items fields := by
  rw [FieldList.heads, ← List.mapM'_eq_mapM] at h
  induction fields generalizing items with
  | nil =>
      cases items with
      | nil => trivial
      | cons item items => cases h
  | cons f fields ih =>
      rw [List.mapM'_cons] at h
      obtain ⟨head, hhead, h⟩ := except_bind_eq_ok.mp h
      obtain ⟨heads, hheads, h⟩ := except_bind_eq_ok.mp h
      cases items with
      | nil => cases h
      | cons item items =>
          cases h
          have htype := hcarries f List.mem_cons_self item List.mem_cons_self hhead
          have hrest := ih hheads fun g hg other hother =>
            hcarries g (List.mem_cons_of_mem f hg) other (List.mem_cons_of_mem item hother)
          exact ⟨(Field.head_eq_ok hhead).2.2, fun _ => htype, hrest⟩

theorem infix_tokens {r : RecordItem} (hr : r ∈ file.records) :
    r.tokens file.runtime.tokens <:+: file.tokens := by
  obtain ⟨front, back, hrecords⟩ := List.append_of_mem hr
  refine ⟨statics file.patterns ++ front.flatMap (RecordItem.tokens file.runtime.tokens),
    back.flatMap (RecordItem.tokens file.runtime.tokens), ?_⟩
  rw [tokens, hrecords, List.flatMap_append, List.flatMap_cons, List.append_assoc,
    List.append_assoc]

namespace Covering

variable {root : Schema}

theorem eq_of_text_eq (h : file.Covering root) {r r' : RecordItem} (hr : r ∈ file.records)
    (hr' : r' ∈ file.records) (htext : r.name.text = r'.name.text) : r = r' :=
  List.inj_on_of_nodup_map h.distinct hr hr' htext

theorem count_definitions (h : file.Covering root) {r : RecordItem} (hr : r ∈ file.records) :
    (definitions file.tokens).count r.name.text = 1 := by
  have hplain : ∀ r ∈ file.records, r.Plain := fun r hr => by
    obtain ⟨display, fields, -, hdeclares⟩ := h.declares r hr
    exact hdeclares.plain
  rw [definitions_tokens h.runtime hplain]
  exact List.count_eq_one_of_mem h.distinct (List.mem_map_of_mem hr)

/-- If records of one display name declare the same fields, then what a type names is emitted as
the schema of the type has it, at whatever depth. -/
theorem carries_of_agree (h : file.Covering root)
    (hagree : ∀ display fields other, .record (some display) fields ∈ root.parts →
      .record (some display) other ∈ root.parts →
        FieldList.heads fields = FieldList.heads other)
    {schema : Schema} (hparts : schema.parts ⊆ root.parts) {type : SourceType}
    (htype : SourceType.ofSchema schema = .ok type)
    (hnames : ∀ id ∈ type.names, ∃ r ∈ file.records, r.name = id) :
    file.Carries type schema ∧
      ∀ display fields, .record (some display) fields ∈ schema.parts →
        file.Emits display fields := by
  -- By induction on the schema. The source has a record for each name in a type, and by agreement
  -- its fields are those that the schema has there; the types of these name records of the source.
  induction schema generalizing type with
  | scalar kind name =>
      cases htype
      exact ⟨rfl, by simp [Schema.parts]⟩
  | bytes name =>
      cases htype
      exact ⟨trivial, by simp [Schema.parts]⟩
  | optional elem ih | sequence elem _ ih =>
      obtain ⟨inner, hinner, htype⟩ := except_bind_eq_ok.mp htype
      cases htype
      obtain ⟨hcarries, hemits⟩ := ih (List.Subset.trans (List.subset_cons_self _ _) hparts)
        hinner hnames
      exact ⟨hcarries, by simpa [Schema.parts] using hemits⟩
  | array n elem _ ih =>
      obtain ⟨inner, hinner, htype⟩ := except_bind_eq_ok.mp htype
      cases htype
      obtain ⟨hcarries, hemits⟩ := ih (List.Subset.trans (List.subset_cons_self _ _) hparts)
        hinner hnames
      exact ⟨⟨rfl, hcarries⟩, by simpa [Schema.parts] using hemits⟩
  | map key val _ ihkey ihval =>
      obtain ⟨k, hkey, htype⟩ := except_bind_eq_ok.mp htype
      obtain ⟨v, hval, htype⟩ := except_bind_eq_ok.mp htype
      cases htype
      rw [Schema.parts, List.cons_subset, List.append_subset] at hparts
      obtain ⟨hcarriesKey, hemitsKey⟩ := ihkey hparts.2.1 hkey fun id hid =>
        hnames id (List.mem_append_left _ hid)
      obtain ⟨hcarriesVal, hemitsVal⟩ := ihval hparts.2.2 hval fun id hid =>
        hnames id (List.mem_append_right _ hid)
      refine ⟨⟨hcarriesKey, hcarriesVal⟩, fun display fields hpart => ?_⟩
      have hpart : .record (some display) fields ∈ key.parts ∨
          .record (some display) fields ∈ val.parts := by simpa [Schema.parts] using hpart
      rcases hpart with hpart | hpart
      · exact hemitsKey display fields hpart
      · exact hemitsVal display fields hpart
  | record name fields ih =>
      obtain ⟨id, hid, htype⟩ := except_bind_eq_ok.mp htype
      cases htype
      cases name with
      | none => cases (Identifier.ofName_eq_ok hid).1
      | some display =>
          rw [Schema.parts, List.cons_subset] at hparts
          obtain ⟨r, hr, rfl⟩ := hnames id List.mem_cons_self
          obtain ⟨display', fields', hpart', hdeclares'⟩ := h.declares r hr
          obtain rfl : display = display' := Identifier.name_eq_of_ofName hid hdeclares'.name
          have hdeclares : r.Declares display fields :=
            ⟨hid, (hagree display fields fields' hparts.1 hpart').trans hdeclares'.fields⟩
          have hfields : ∀ f ∈ fields, ∀ item ∈ r.fields, f.head = .ok item.head →
              file.Carries item.type f.type ∧
                ∀ display inner, .record (some display) inner ∈ f.type.parts →
                  file.Emits display inner := by
            intro f hf item hitem hhead
            have hinner : f.type.parts ⊆ root.parts := fun part hpart =>
              hparts.2 (Schema.mem_fieldParts.mpr ⟨f, hf, hpart⟩)
            exact ih f hf hinner (Field.head_eq_ok hhead).2.1 (h.closed r hr item hitem)
          have hcarries := carriesFields_of_heads hdeclares.fields fun f hf item hitem hhead =>
            (hfields f hf item hitem hhead).1
          refine ⟨⟨r, hr, rfl, hcarries⟩, fun other inner hpart => ?_⟩
          rcases List.mem_cons.mp hpart with heq | hpart
          · cases heq
            exact ⟨r, hr, hdeclares, infix_tokens hr, h.count_definitions hr, hcarries⟩
          · obtain ⟨f, hf, hpart⟩ := Schema.mem_fieldParts.mp hpart
            obtain ⟨item, hitem, hhead⟩ := hdeclares.exists_item hf
            exact (hfields f hf item hitem hhead).2 other inner hpart

/-- Records of one display name that are both emitted as themselves are emitted by one item, so they
declare the same fields. -/
theorem heads_eq_of_emits (h : file.Covering root) {display : String} {fields other : FieldList}
    (hfields : file.Emits display fields) (hother : file.Emits display other) :
    fields.heads = other.heads := by
  obtain ⟨r, hr, hemits⟩ := hfields
  obtain ⟨r', hr', hemits'⟩ := hother
  have hname : r.name = r'.name :=
    Except.ok.inj (hemits.declares.name.symm.trans hemits'.declares.name)
  obtain rfl := h.eq_of_text_eq hr hr' (congrArg Identifier.text hname)
  exact hemits.declares.fields.trans hemits'.declares.fields.symm

/-- All records of the schema are emitted as themselves exactly if those of one display name declare
the same fields. -/
theorem emits_iff_agree (h : file.Covering root) :
    (∀ display fields, .record (some display) fields ∈ root.parts → file.Emits display fields) ↔
      ∀ display fields other, .record (some display) fields ∈ root.parts →
        .record (some display) other ∈ root.parts →
          FieldList.heads fields = FieldList.heads other := by
  constructor
  · intro hemits display fields other hfields hother
    exact h.heads_eq_of_emits (hemits display fields hfields) (hemits display other hother)
  · intro hagree
    obtain ⟨r, hr, htype⟩ := h.root
    have hnames : ∀ id ∈ (SourceType.record r.name).names, ∃ r ∈ file.records, r.name = id :=
      List.forall_mem_singleton.mpr ⟨r, hr, rfl⟩
    exact (h.carries_of_agree hagree (List.Subset.refl _) htype hnames).2

end Covering

/-! ### Source for a compiled record -/

theorem exists_withName_of_expand {reg : Registry} {layers : Nat} {name : String} {schema : Schema}
    {stack stack' : List String} (h : Builder.expand reg layers name stack = .ok schema stack') :
    ∃ (built : Schema) (display : String), schema = built.withName display := by
  cases layers with
  | zero =>
      obtain ⟨named, mid, -, h⟩ := bind_eq_ok.mp h
      exact (throw_ne_ok h).elim
  | succ layers =>
      obtain ⟨named, mid, -, h⟩ := bind_eq_ok.mp h
      obtain ⟨built, -, hschema⟩ := bind_pure_eq_ok.mp h
      exact ⟨built, named.display, hschema⟩

theorem exists_display_of_compile {reg : Registry} {name : String} {record : CompiledRecord}
    (h : CompiledRecord.compile reg name = .ok record) :
    ∃ display, record.display = some display := by
  obtain ⟨stack, hexpand⟩ := Schema.ofBuilder_eq_ok.mp (CompiledRecord.compile_eq_ok h).1
  obtain ⟨built, display, hschema⟩ := exists_withName_of_expand hexpand
  cases built with
  | record _ fields => exact ⟨display, (Schema.record.inj hschema).1⟩
  | _ => cases hschema

theorem covering_of_ofRecord {reg : Registry} {name runtime : String} {record : CompiledRecord}
    (hcompile : CompiledRecord.compile reg name = .ok record)
    (hsource : ofRecord record runtime = .ok file) : file.Covering record.schema := by
  obtain ⟨display, hdisplay⟩ := exists_display_of_compile hcompile
  obtain ⟨path, hpath, h⟩ := except_bind_eq_ok.mp hsource
  obtain ⟨collected, hcollected, h⟩ := except_bind_eq_ok.mp h
  obtain ⟨records, hrecords, h⟩ := except_bind_eq_ok.mp h
  cases h
  rw [hdisplay, Option.getD_some] at hcollected
  obtain ⟨hroot, hnodup, hcovers⟩ := Collector.records_closed hcollected
  have hitem : ∀ r ∈ records, ∃ entry ∈ collected, r.Declares entry.1 entry.2 := by
    intro r hr
    obtain ⟨entry, hentry, hr⟩ := forall_of_mapM_eq_ok hrecords r hr
    exact ⟨entry, hentry, RecordItem.declares_of_ofFields hr⟩
  have hentry : ∀ entry ∈ collected, ∃ r ∈ records, r.Declares entry.1 entry.2 := by
    intro entry hentry
    obtain ⟨r, hr, hentry⟩ := exists_of_mem_of_mapM_eq_ok hrecords entry hentry
    exact ⟨r, hr, RecordItem.declares_of_ofFields hentry⟩
  refine ⟨Path.segments_ne_nil_of_parse hpath, ?_, ?_, ?_, ?_⟩
  · obtain ⟨r, hr, hdeclares⟩ := hentry _ hroot
    refine ⟨r, hr, ?_⟩
    rw [CompiledRecord.schema, hdisplay, SourceType.ofSchema, Option.getD_some, hdeclares.name]
    rfl
  · refine nodup_of_mapM_eq_ok hrecords hnodup fun {entry other r r'} h h' htext => ?_
    exact Identifier.eq_of_text_eq (RecordItem.declares_of_ofFields h).name
      (RecordItem.declares_of_ofFields h').name htext
  · intro r hr
    obtain ⟨entry, hentry, hdeclares⟩ := hitem r hr
    refine ⟨entry.1, entry.2, ?_, hdeclares⟩
    rcases Collector.mem_records hcollected entry hentry with rfl | hpart
    · rw [CompiledRecord.schema, hdisplay]
      exact List.mem_cons_self
    · exact List.mem_cons_of_mem _ hpart
  · intro r hr f hf id hid
    obtain ⟨entry, hmem, hdeclares⟩ := hitem r hr
    obtain ⟨g, hg, hhead⟩ := hdeclares.exists_field hf
    obtain ⟨inner, hinner, hname⟩ :=
      hcovers entry hmem g hg f.type (Field.head_eq_ok hhead).2.1 id hid
    obtain ⟨r', hr', hdeclares'⟩ := hentry inner hinner
    exact ⟨r', hr', Except.ok.inj (hdeclares'.name.symm.trans hname)⟩

/-- Source for a compiled record emits every record in it as itself, under its display name, exactly
if no two of them that have one display name declare different fields. -/
theorem emits_iff {reg : Registry} {name runtime : String} {record : CompiledRecord}
    (hcompile : CompiledRecord.compile reg name = .ok record)
    (hsource : ofRecord record runtime = .ok file) :
    (∀ display fields, .record (some display) fields ∈ record.schema.parts →
      file.Emits display fields) ↔
    ∀ display fields other, .record (some display) fields ∈ record.schema.parts →
      .record (some display) other ∈ record.schema.parts →
        FieldList.heads fields = FieldList.heads other :=
  (covering_of_ofRecord hcompile hsource).emits_iff_agree

/-- Points of two packages, both displayed by their short name; the fields of the second one are
given. -/
def pointRegistry (fields : List (FieldDecl TypeExpr)) : Registry :=
  Registry.empty
    |>.insert "a.Point" "Point" (.struct [⟨"X", .scalar (.num .uint8), ""⟩])
    |>.insert "b.Point" "Point" (.struct fields)
    |>.define "Pair" (.struct [⟨"A", .named "a.Point", ""⟩, ⟨"B", .named "b.Point", ""⟩])

def numberField (name : String) : Field Schema := ⟨name, .scalar (.num .uint8) none, false, []⟩

def pointField (name : String) (fields : FieldList) : Field Schema :=
  ⟨name, .record (some "Point") fields, false, []⟩

def pairRecord (fields : FieldList) : CompiledRecord :=
  ⟨"Pair", some "Pair", [pointField "A" [numberField "X"], pointField "B" fields], [], []⟩

/-- What is emitted for a pair of points: one point, that of the first package. -/
def pairFile : SourceFile :=
  ⟨⟨false, ["recodec"]⟩, [],
    [⟨⟨"Pair", false⟩,
        [⟨⟨"A", false⟩, .record ⟨"Point", false⟩, some ⟨[], []⟩⟩,
          ⟨⟨"B", false⟩, .record ⟨"Point", false⟩, some ⟨[], []⟩⟩]⟩,
      ⟨⟨"Point", false⟩, [⟨⟨"X", false⟩, .scalar (.num .uint8), some ⟨[], []⟩⟩]⟩]⟩

/-- Points with the same fields are both emitted as themselves. -/
theorem pair_emitted :
    let record := pairRecord [numberField "X"]
    CompiledRecord.compile (pointRegistry [⟨"X", .scalar (.num .uint8), ""⟩]) "Pair" = .ok record ∧
      ofRecord record "recodec" = .ok pairFile ∧
      ∀ display fields, .record (some display) fields ∈ record.schema.parts →
        pairFile.Emits display fields := by
  intro record
  have hcompile : CompiledRecord.compile (pointRegistry [⟨"X", .scalar (.num .uint8), ""⟩]) "Pair" =
      .ok record := rfl
  have hsource : ofRecord record "recodec" = .ok pairFile := by decide +kernel
  have hparts : ∀ display fields, .record (some display) fields ∈ record.schema.parts →
      (display = "Pair" ∧ fields = record.fields) ∨
        (display = "Point" ∧ fields = [numberField "X"]) := by
    simp [record, pairRecord, CompiledRecord.schema, Schema.parts, Schema.fieldParts, pointField,
      numberField]
  refine ⟨hcompile, hsource, (emits_iff hcompile hsource).mpr ?_⟩
  intro display fields other hfields hother
  rcases hparts display fields hfields with ⟨rfl, rfl⟩ | ⟨rfl, rfl⟩ <;>
    rcases hparts _ other hother with ⟨heq, rfl⟩ | ⟨heq, rfl⟩ <;>
    first | rfl | exact absurd heq (by decide)

/-- Points with different fields are not: the second one has no struct of its own. -/
theorem pair_not_emitted :
    let point : FieldList := [⟨"Name", .scalar .string none, false, []⟩]
    CompiledRecord.compile (pointRegistry [⟨"Name", .scalar .string, ""⟩]) "Pair" =
        .ok (pairRecord point) ∧
      ofRecord (pairRecord point) "recodec" = .ok pairFile ∧
      .record (some "Point") point ∈ (pairRecord point).schema.parts ∧
      ¬ pairFile.Emits "Point" point := by
  intro point
  refine ⟨rfl, by decide +kernel, ?_, ?_⟩
  · simp [point, pairRecord, CompiledRecord.schema, Schema.parts, Schema.fieldParts, pointField]
  · rintro ⟨r, hr, hemits⟩
    have hheads := hemits.declares.fields
    rcases List.mem_cons.mp hr with rfl | hr
    · exact absurd hheads (by decide +kernel)
    · obtain rfl := List.mem_singleton.mp hr
      exact absurd hheads (by decide +kernel)

end SourceFile

end SchemaWire
