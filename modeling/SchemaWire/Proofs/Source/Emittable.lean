import SchemaWire.Proofs.Schema.WellFormed
import SchemaWire.Proofs.Source.Declared
import SchemaWire.Proofs.Source.Literals
import SchemaWire.Proofs.Source.SelfContained

/-!
When source can be emitted. The runtime has to be a path, the types of the fields of all entered
records have to be collectable, and the names of these records and fields have to be usable as
identifiers; nothing else can go wrong. What the constraints of a compiled record compare with was
read as a literal of the type of its field, and as such it can be written again.
-/

namespace SchemaWire

open Stateful

/-! ### Records -/

theorem SourceType.exists_ofSchema {schema : Schema}
    (h : ∀ name fields, .record name fields ∈ schema.layers → Identifier.Usable (name.getD "")) :
    ∃ type, ofSchema schema = .ok type := by
  induction schema with
  | scalar | bytes => exact ⟨_, rfl⟩
  | optional elem ih | array n elem _ ih | sequence elem _ ih =>
      obtain ⟨inner, hinner⟩ := ih fun name fields hmem =>
        h name fields (List.mem_cons_of_mem _ hmem)
      exact ⟨_, except_bind_eq_ok.mpr ⟨inner, hinner, rfl⟩⟩
  | map key val _ ihkey ihval =>
      obtain ⟨k, hk⟩ := ihkey fun name fields hmem =>
        h name fields (List.mem_cons_of_mem _ (List.mem_append_left _ hmem))
      obtain ⟨v, hv⟩ := ihval fun name fields hmem =>
        h name fields (List.mem_cons_of_mem _ (List.mem_append_right _ hmem))
      exact ⟨_, except_bind_eq_ok.mpr ⟨k, hk, except_bind_eq_ok.mpr ⟨v, hv, rfl⟩⟩⟩
  | record name fields =>
      have hname := h name fields (List.mem_singleton_self _)
      obtain ⟨id, hid⟩ := Identifier.exists_ofName_iff.mpr hname
      exact ⟨_, except_bind_eq_ok.mpr ⟨id, hid, rfl⟩⟩

def FieldList.Suited (fields : FieldList) : Prop :=
  ∀ f ∈ fields, ∀ k ∈ f.constraints, ∀ l ∈ k.rule.literals, RuleKind.Suits f.type l

namespace RecordItem

variable {name : String} {fields : FieldList}

theorem exists_item (hsuited : fields.Suited)
    {heads : List (Field Schema × Identifier × SourceType)}
    (hheads : fields.mapM (fun f => do
      return (f, ← Identifier.ofName f.name, ← SourceType.ofSchema f.type)) = .ok heads) :
    ∀ head ∈ heads, ∃ item : FieldItem, (do
      if head.1.skip then return ⟨head.2.1, head.2.2, none⟩
      else return ⟨head.2.1, head.2.2, some (← Reading.ofField head.1)⟩) =
        Except.ok (ε := EmitError) item := by
  intro head hmem
  obtain ⟨f, hf, hhead⟩ := forall_of_mapM_eq_ok hheads head hmem
  obtain ⟨id, -, hhead⟩ := except_bind_eq_ok.mp hhead
  obtain ⟨type, -, hhead⟩ := except_bind_eq_ok.mp hhead
  cases hhead
  obtain ⟨reading, hreading⟩ := Reading.exists_ofField (hsuited f hf)
  cases hskip : f.skip with
  | true => exact ⟨_, rfl⟩
  | false => exact ⟨_, except_bind_eq_ok.mpr ⟨reading, hreading, rfl⟩⟩

/-- A record can be written exactly if its name, the names of its fields, and their types can be. -/
theorem exists_ofFields_iff (hsuited : fields.Suited) : (∃ r, ofFields name fields = .ok r) ↔
    Identifier.Usable name ∧ ∀ f ∈ fields, Identifier.Usable f.name ∧
      ∃ type, SourceType.ofSchema f.type = .ok type := by
  constructor
  · rintro ⟨r, hr⟩
    have hdeclares := declares_of_ofFields hr
    refine ⟨Identifier.exists_ofName_iff.mp ⟨_, hdeclares.name⟩, fun f hf => ?_⟩
    obtain ⟨item, -, hhead⟩ := hdeclares.exists_item hf
    obtain ⟨hname, htype, -⟩ := Field.head_eq_ok hhead
    exact ⟨Identifier.exists_ofName_iff.mp ⟨_, hname⟩, _, htype⟩
  · rintro ⟨hname, hfields⟩
    obtain ⟨id, hid⟩ := Identifier.exists_ofName_iff.mpr hname
    have hhead : ∀ f ∈ fields, ∃ head, (do
        return (f, ← Identifier.ofName f.name, ← SourceType.ofSchema f.type)) =
          Except.ok (ε := EmitError) head := by
      intro f hf
      obtain ⟨hfield, type, htype⟩ := hfields f hf
      obtain ⟨fieldId, hfieldId⟩ := Identifier.exists_ofName_iff.mpr hfield
      exact ⟨_, except_bind_eq_ok.mpr
        ⟨fieldId, hfieldId, except_bind_eq_ok.mpr ⟨type, htype, rfl⟩⟩⟩
    obtain ⟨heads, hheads⟩ := exists_mapM_eq_ok_iff.mpr hhead
    obtain ⟨items, hitems⟩ := exists_mapM_eq_ok_iff.mpr (exists_item hsuited hheads)
    exact ⟨⟨id, items⟩, except_bind_eq_ok.mpr ⟨id, hid, except_bind_eq_ok.mpr
      ⟨heads, hheads, except_bind_eq_ok.mpr ⟨items, hitems, rfl⟩⟩⟩⟩

end RecordItem

/-! ### Failures -/

def EmitError.SparesLiterals {α : Type} (result : Except EmitError α) : Prop :=
  ∀ field l kind, result ≠ .error (.literal field l kind)

namespace EmitError.SparesLiterals

variable {α β : Type}

theorem of_ok {x : Except EmitError α} (h : ∃ a, x = .ok a) : SparesLiterals x := by
  rintro field l kind rfl
  obtain ⟨a, h⟩ := h
  cases h

theorem bind {x : Except EmitError α} {f : α → Except EmitError β} (hx : SparesLiterals x)
    (hf : ∀ a, x = .ok a → SparesLiterals (f a)) : SparesLiterals (x >>= f) := by
  cases x with
  | ok a => exact hf a rfl
  | error e =>
      intro field l kind h
      cases h
      exact hx field l kind rfl

theorem mapM {f : α → Except EmitError β} {as : List α} (h : ∀ a ∈ as, SparesLiterals (f a)) :
    SparesLiterals (as.mapM f) := by
  rw [← List.mapM'_eq_mapM]
  induction as with
  | nil => exact of_ok ⟨[], rfl⟩
  | cons a as ih =>
      obtain ⟨ha, has⟩ := List.forall_mem_cons.mp h
      rw [List.mapM'_cons]
      exact bind ha fun b _ => bind (ih has) fun bs _ => of_ok ⟨b :: bs, rfl⟩

theorem ofName (name : String) : SparesLiterals (Identifier.ofName name) := by
  unfold Identifier.ofName
  split
  · nofun
  · nofun

theorem ofSchema (schema : Schema) : SparesLiterals (SourceType.ofSchema schema) := by
  induction schema with
  | scalar | bytes => exact of_ok ⟨_, rfl⟩
  | optional elem ih | array n elem _ ih | sequence elem _ ih =>
      exact bind ih fun inner _ => of_ok ⟨_, rfl⟩
  | map key val _ ihkey ihval =>
      exact bind ihkey fun k _ => bind ihval fun v _ => of_ok ⟨_, rfl⟩
  | record name fields => exact bind (ofName _) fun id _ => of_ok ⟨_, rfl⟩

theorem parse (text : String) : SparesLiterals (Path.parse text) := by
  intro field l kind h
  simp only [Path.parse] at h
  split at h <;> split at h <;> cases h

theorem visitFields {fields : FieldList}
    (h : ∀ f ∈ fields, ∀ before, SparesLiterals (Collector.visit f.name f.type before))
    (before : List NamedFields) : SparesLiterals (Collector.visitFields fields before) := by
  induction fields generalizing before with
  | nil => exact of_ok ⟨_, rfl⟩
  | cons f fields ih =>
      exact bind (h f List.mem_cons_self before) fun mid _ =>
        ih (fun g hg => h g (List.mem_cons_of_mem f hg)) mid.2

theorem visit (field : String) (schema : Schema) (before : List NamedFields) :
    SparesLiterals (Collector.visit field schema before) := by
  induction schema generalizing field before with
  | scalar | bytes => exact of_ok ⟨_, rfl⟩
  | optional elem ih | array n elem _ ih | sequence elem _ ih => exact ih field before
  | map key val _ ihkey ihval =>
      unfold Collector.visit
      split
      · intro _ _ _ h
        cases h
      · exact bind (ihkey field before) fun mid _ => ihval field mid.2
  | record name fields ih =>
      cases name with
      | none =>
          intro _ _ _ h
          cases h
      | some name =>
          rw [Collector.visit_record]
          split
          · exact of_ok ⟨_, rfl⟩
          · exact visitFields (fun f hf => ih f hf f.name) _

theorem ofFields {fields : FieldList} (hsuited : fields.Suited) (name : String) :
    SparesLiterals (RecordItem.ofFields name fields) := by
  refine bind (ofName name) fun id _ => bind (mapM fun f _ => ?_) fun heads hheads => ?_
  · exact bind (ofName f.name) fun fieldId _ => bind (ofSchema f.type) fun type _ => of_ok ⟨_, rfl⟩
  · exact bind (mapM fun head hmem => of_ok (RecordItem.exists_item hsuited hheads head hmem))
      fun items _ => of_ok ⟨⟨id, items⟩, rfl⟩

theorem ofRecord {record : CompiledRecord}
    (hsuited : ∀ entry ∈ Collector.enteredFrom (record.display.getD record.name, record.fields),
      FieldList.Suited entry.2) (runtime : String) :
    SparesLiterals (SourceFile.ofRecord record runtime) := by
  refine bind (parse runtime) fun path _ => bind ?_ fun collected hcollected =>
    bind (mapM fun entry hentry => ?_) fun records _ => of_ok ⟨_, rfl⟩
  · exact bind (visitFields (fun f _ => visit f.name f.type) _) fun visited _ => of_ok ⟨_, rfl⟩
  · obtain ⟨-, rfl⟩ := Collector.records_eq_ok_iff.mp hcollected
    exact ofFields (hsuited entry hentry) entry.1

end EmitError.SparesLiterals

/-! ### Source for a compiled record -/

namespace CompiledRecord

def entered (record : CompiledRecord) : List NamedFields :=
  Collector.enteredFrom (record.display.getD record.name, record.fields)

/-- Constraints were compiled for the fields that they stand at, so their literals suit the types of
these, in whatever record inside. -/
theorem suited_of_compile {reg : Registry} {name : String} {record : CompiledRecord}
    (h : compile reg name = .ok record) : ∀ entry ∈ record.entered, FieldList.Suited entry.2 := by
  have hwell := ((Schema.build_wellFormed reg).2 name record.schema (compile_eq_ok h).1).2
  intro entry hentry f hf k hk l hl
  have hfields : FieldList.WellFormed entry.2 := by
    rcases Collector.mem_parts_of_mem_enteredFrom entry hentry with rfl | hpart
    · exact hwell _ List.mem_cons_self
    · exact hwell _ (List.mem_cons_of_mem _ hpart)
  exact (hfields.fits f hf k hk).literals l hl

end CompiledRecord

namespace SourceFile

/-- Where all literals suit their fields, source is emitted if and only if the runtime is a path, no
entered record holds a record without a display name or a map keyed by floats, and all names are
usable. -/
theorem exists_ofRecord_iff {record : CompiledRecord} (runtime : String)
    (hsuited : ∀ entry ∈ record.entered, FieldList.Suited entry.2) :
    (∃ file, ofRecord record runtime = .ok file) ↔
      Path.IsPath runtime.toList ∧ ∀ entry ∈ record.entered, Identifier.Usable entry.1 ∧
        ∀ f ∈ entry.2, Identifier.Usable f.name ∧ f.type.Collectable := by
  constructor
  · rintro ⟨file, h⟩
    obtain ⟨path, hpath, h⟩ := except_bind_eq_ok.mp h
    obtain ⟨collected, hcollected, h⟩ := except_bind_eq_ok.mp h
    obtain ⟨items, hitems, -⟩ := except_bind_eq_ok.mp h
    obtain ⟨hcollectable, rfl⟩ := Collector.records_eq_ok_iff.mp hcollected
    refine ⟨Path.exists_parse_iff.mp ⟨path, hpath⟩, fun entry hentry => ?_⟩
    obtain ⟨item, -, hitem⟩ := exists_of_mem_of_mapM_eq_ok hitems entry hentry
    obtain ⟨hname, hfields⟩ :=
      (RecordItem.exists_ofFields_iff (hsuited entry hentry)).mp ⟨item, hitem⟩
    exact ⟨hname, fun f hf => ⟨(hfields f hf).1, hcollectable entry hentry f hf⟩⟩
  · rintro ⟨hruntime, hentries⟩
    obtain ⟨path, hpath⟩ := Path.exists_parse_iff.mpr hruntime
    have hcollected := Collector.records_eq_ok_iff.mpr
      ⟨fun entry hentry f hf => ((hentries entry hentry).2 f hf).2, rfl⟩
    obtain ⟨-, hclosed⟩ := Collector.enteredFrom_closed
      (record.display.getD record.name, record.fields)
    -- A record that a type names is entered under its display name, which is usable then.
    have htype : ∀ entry ∈ record.entered, ∀ f ∈ entry.2,
        ∃ type, SourceType.ofSchema f.type = .ok type := by
      intro entry hentry f hf
      refine SourceType.exists_ofSchema fun name fields hmem => ?_
      cases name with
      | none => exact (((hentries entry hentry).2 f hf).2.named fields hmem).elim
      | some display =>
          have hdisplay := hclosed entry hentry f hf display fields hmem
          obtain ⟨inner, hinner, rfl⟩ := List.mem_map.mp hdisplay
          exact (hentries inner hinner).1
    have hitem : ∀ entry ∈ record.entered, ∃ r, RecordItem.ofFields entry.1 entry.2 = .ok r := by
      intro entry hentry
      obtain ⟨hname, hfields⟩ := hentries entry hentry
      exact (RecordItem.exists_ofFields_iff (hsuited entry hentry)).mpr
        ⟨hname, fun f hf => ⟨(hfields f hf).1, htype entry hentry f hf⟩⟩
    obtain ⟨items, hitems⟩ := exists_mapM_eq_ok_iff.mpr hitem
    exact ⟨⟨path, record.patterns, items⟩, except_bind_eq_ok.mpr ⟨path, hpath,
      except_bind_eq_ok.mpr ⟨_, hcollected, except_bind_eq_ok.mpr ⟨items, hitems, rfl⟩⟩⟩⟩

/-- Source for a compiled record is emitted exactly if the runtime is a path, no entered record
holds a record without a display name or a map keyed by floats, and all names are usable. It never
fails over a literal: every literal of a constraint can be written, and a float is written as a
numeral only if it is finite. -/
theorem emittable_iff {reg : Registry} {name : String} {record : CompiledRecord}
    (hcompile : CompiledRecord.compile reg name = .ok record) (runtime : String) :
    ((∃ file, ofRecord record runtime = .ok file) ↔
      Path.IsPath runtime.toList ∧ ∀ entry ∈ record.entered, Identifier.Usable entry.1 ∧
        ∀ f ∈ entry.2, Identifier.Usable f.name ∧ f.type.Collectable) ∧
    (∀ field l kind, ofRecord record runtime ≠ .error (.literal field l kind)) ∧
    ∀ entry ∈ record.entered, ∀ f ∈ entry.2, ∀ k ∈ f.constraints, ∀ l ∈ k.rule.literals,
      ∃ s, SourceLiteral.ofLiteral k.field f.type.inner.scalarKind? l = .ok s ∧
        ∀ pattern kind, s = .float pattern kind → SourceLiteral.SpellsFloat pattern kind := by
  have hsuited := CompiledRecord.suited_of_compile hcompile
  have hspares := EmitError.SparesLiterals.ofRecord hsuited runtime
  refine ⟨exists_ofRecord_iff runtime hsuited, hspares, ?_⟩
  intro entry hentry f hf k hk l hl
  have hsuits := hsuited entry hentry f hf k hk l hl
  obtain ⟨s, hs⟩ := SourceLiteral.exists_ofLiteral k.field hsuits
  refine ⟨s, hs, ?_⟩
  rintro pattern kind rfl
  exact SourceLiteral.spellsFloat_of_ofLiteral hsuits hs

def tankRegistry : Registry :=
  Registry.empty
    |>.define "Note" (.struct [⟨"type", .scalar .string, ""⟩])
    |>.define "Tank" (.struct [⟨"Level", .scalar (.num .float64), "min=0,max=inf"⟩,
        ⟨"Notes", .map (.scalar .string) (.pointer (.named "Note")), "-"⟩])

def noteFields : FieldList := [⟨"type", .scalar .string none, false, []⟩]

def tankFields : FieldList :=
  [⟨"Level", .scalar (.num .float64) none, false,
      [⟨"Level", .min (.float 0), false⟩, ⟨"Level", .max (.float 0x7ff0000000000000), false⟩]⟩,
    ⟨"Notes", .map (.scalar .string none) (.optional (.record (some "Note") noteFields)) none, true,
      []⟩]

def tankRecord : CompiledRecord := ⟨"Tank", some "Tank", tankFields, [], []⟩

/-- There is source for the tank with an absolute path, but not with a lone underscore in it. -/
theorem emittable_iff_tank : CompiledRecord.compile tankRegistry "Tank" = .ok tankRecord ∧
    (∃ file, ofRecord tankRecord "::my::runtime" = .ok file) ∧
    ¬ ∃ file, ofRecord tankRecord "my::_" = .ok file := by
  have hcompile : CompiledRecord.compile tankRegistry "Tank" = .ok tankRecord := rfl
  have hentered : tankRecord.entered = [("Tank", tankFields), ("Note", noteFields)] := rfl
  have husable : ∀ name ∈ ["Tank", "Level", "Notes", "Note", "type"], Identifier.Usable name := by
    decide
  have hnotes : (Schema.map (.scalar .string none) (.optional (.record (some "Note") noteFields))
      none).Collectable :=
    Schema.collectable_map.mpr ⟨rfl, Schema.collectable_scalar,
      Schema.collectable_optional.mpr Schema.collectable_record⟩
  have hentries : ∀ entry ∈ tankRecord.entered, Identifier.Usable entry.1 ∧
      ∀ f ∈ entry.2, Identifier.Usable f.name ∧ f.type.Collectable := by
    simpa [hentered, tankFields, noteFields, husable, Schema.collectable_scalar] using hnotes
  have hpath : Path.IsPath "::my::runtime".toList := Path.exists_parse_iff.mp ⟨_, rfl⟩
  refine ⟨hcompile, (emittable_iff hcompile _).1.mpr ⟨hpath, hentries⟩, fun h => ?_⟩
  obtain ⟨p, hp⟩ := Path.exists_parse_iff.mpr ((emittable_iff hcompile _).1.mp h).1
  cases hp

end SourceFile

end SchemaWire
