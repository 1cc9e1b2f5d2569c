import Mathlib.Data.List.Nodup
import SchemaWire.Proofs.Source.Tested

/-!
When emitted source is self-contained: each static that it matches a text against is declared in its
block of statics, and each package that it names is among the dependencies of the record.

The statics and the dependencies are those of the shapes required by fields that travel. Source is
emitted for records behind skipped fields too, and these may require other shapes; source is
self-contained exactly if they do not.
-/

namespace SchemaWire

open Stateful Token

namespace TextShape

theorem mem_all (shape : TextShape) : shape ∈ all := by
  cases shape <;> decide

theorem patternName_injective {s t : TextShape} (h : s.patternName = t.patternName) : s = t := by
  have hnodup : (all.map patternName).Nodup := by decide +kernel
  exact List.inj_on_of_nodup_map hnodup s.mem_all t.mem_all h

theorem occurs_match {shape : TextShape} (h : shape.pattern?.isSome = true) :
    Occurs [.word shape.patternName, sign '.', .word "is_match"] shape.tokens := by
  cases shape with
  | url | ip | ipv4 | ipv6 => cases h
  | _ => exact .here ⟨_, rfl⟩

theorem occurs_regex (shape : TextShape) :
    Occurs (colons ++ [.word "regex"]) shape.declaration :=
  .later (.later (.later (.later (.here ⟨_, rfl⟩))))

theorem occurs_declaration {shape : TextShape} {static : String} {rest : List Token} :
    Occurs [.word "static", .word "ref", .word static, sign ':'] (shape.declaration ++ rest) ↔
      static = shape.patternName ∨
        Occurs [.word "static", .word "ref", .word static, sign ':'] rest := by
  simp [declaration, path, colons, signs, sign, call, parens, ofText, Occurs.cons_iff,
    Occurs.group_iff, Occurs.nil_iff]

theorem occurs_declarations {patterns : List TextShape} {static : String} :
    Occurs [.word "static", .word "ref", .word static, sign ':']
      (patterns.flatMap declaration) ↔ ∃ shape ∈ patterns, static = shape.patternName := by
  induction patterns with
  | nil => simp [Occurs.nil_iff]
  | cons shape patterns ih =>
      rw [List.flatMap_cons, occurs_declaration, ih, List.exists_mem_cons_iff]

end TextShape

namespace SourceFile

def block (declarations : List Token) : List Token :=
  path ["lazy_static", "lazy_static"] ++ [sign '!', braces declarations]

def Declares (file : SourceFile) (static : String) : Prop :=
  ∃ declarations, Occurs (block declarations) file.tokens ∧
    Occurs [.word "static", .word "ref", .word static, sign ':'] declarations

/-- Every pattern that the source matches a text against is declared in it, and every package that
it names is a dependency. -/
structure SelfContained (file : SourceFile) (dependencies : List String) : Prop where
  declared : ∀ shape : String,
    Occurs [.word (shape ++ "_PATTERN"), sign '.', .word "is_match"] file.tokens →
    file.Declares (shape ++ "_PATTERN")
  packages : ∀ package ∈ packages, Occurs (colons ++ [.word package]) file.tokens →
    package ∈ dependencies

/-! ### Blocks of statics -/

theorem occurs_block {declarations inner rest : List Token} :
    Occurs (block declarations) (block inner ++ rest) ↔
      declarations = inner ∨ Occurs (block declarations) inner ∨
        Occurs (block declarations) rest := by
  simp [block, path, colons, signs, sign, braces, Occurs.cons_iff, Occurs.group_iff]

theorem statics_eq_block {patterns : List TextShape} (h : patterns ≠ []) :
    statics patterns = block (patterns.flatMap TextShape.declaration) :=
  if_neg (by simpa using h)

theorem not_occurs_block {ts declarations : List Token}
    (h : Standalone (fun _ => True) (fun name => name ≠ "lazy_static") ts) :
    ¬ Occurs (block declarations) ts := by
  intro hblock
  have hname : Occurs (colons ++ [.word "lazy_static"]) ts := hblock.of_prefix ⟨_, rfl⟩
  exact segment_of_occurs (h.permitted .other nofun) hname rfl

variable {file : SourceFile}

/-- The only block of statics is the one that is laid out for the patterns. -/
theorem occurs_block_iff {declarations : List Token} (hne : file.runtime.segments ≠ [])
    (hruntime : ∀ name ∈ file.runtime.segments, name ∉ packages) :
    Occurs (block declarations) file.tokens ↔
      file.patterns ≠ [] ∧ declarations = file.patterns.flatMap TextShape.declaration := by
  have hpermits : Permits (fun _ => True) (fun name => name ≠ "lazy_static") :=
    { value := trivial
      url := trivial
      address := trivial
      record := trivial
      segment := by
        rintro name hname rfl
        exact hname (by decide) }
  have hrt : Standalone (fun _ => True) (fun name => name ≠ "lazy_static") file.runtime.tokens :=
    Path.standalone_tokens hne fun name hname => hpermits.segment name (hruntime name hname)
  have hrecords : ¬ Occurs (block declarations)
      (file.records.flatMap (RecordItem.tokens file.runtime.tokens)) :=
    not_occurs_block
      (standalone_records hpermits hrt fun shape _ => ⟨fun _ => trivial, fun _ => by decide⟩)
  have hinner : ¬ Occurs (block declarations) (file.patterns.flatMap TextShape.declaration) :=
    not_occurs_block (.flatMap fun shape _ => shape.standalone_declaration hpermits (by decide))
  rw [tokens]
  by_cases hsome : file.patterns = []
  · simpa [statics, hsome] using hrecords
  · rw [statics_eq_block hsome, occurs_block]
    simp [hsome, hrecords, hinner]

theorem declares_iff {static : String} (hne : file.runtime.segments ≠ [])
    (hruntime : ∀ name ∈ file.runtime.segments, name ∉ packages) :
    file.Declares static ↔ ∃ shape ∈ file.patterns, static = shape.patternName := by
  constructor
  · rintro ⟨declarations, hblock, hstatic⟩
    obtain ⟨-, rfl⟩ := (occurs_block_iff hne hruntime).mp hblock
    exact TextShape.occurs_declarations.mp hstatic
  · intro hstatic
    have hsome : file.patterns ≠ [] := by
      obtain ⟨shape, hshape, -⟩ := hstatic
      exact List.ne_nil_of_mem hshape
    exact ⟨_, (occurs_block_iff hne hruntime).mpr ⟨hsome, rfl⟩,
      TextShape.occurs_declarations.mpr hstatic⟩

/-! ### What self-contained source declares and depends on -/

/-- Source declares every pattern that is tested, and the dependencies cover what the tests and the
declarations use. -/
structure Covers (file : SourceFile) (dependencies : List String) : Prop where
  patterns : ∀ shape ∈ file.shapes, shape.pattern?.isSome = true → shape ∈ file.patterns
  url : .url ∈ file.shapes → "url" ∈ dependencies
  statics : file.patterns ≠ [] → "lazy_static" ∈ dependencies ∧ "regex" ∈ dependencies

theorem standalone_tokens {receivers segments : String → Prop}
    (hpermits : Permits receivers segments)
    (hrt : Standalone receivers segments file.runtime.tokens)
    (hshapes : ∀ shape ∈ file.shapes, shape.Tested receivers segments)
    (hstatics : file.patterns ≠ [] → segments "lazy_static" ∧ segments "regex") :
    Standalone receivers segments file.tokens := by
  refine .append ?_ (standalone_records hpermits hrt hshapes)
  by_cases hsome : file.patterns = []
  · rw [hsome]
    exact .nil
  · obtain ⟨hlazy, hregex⟩ := hstatics hsome
    exact standalone_statics hpermits hlazy hregex file.patterns

/-- The words before dots: those that any source has there, and the names of declared statics. -/
def Receiver (file : SourceFile) (w : String) : Prop :=
  w ∈ ["v", "u", "addr", "self"] ∨ ∃ shape ∈ file.patterns, w = shape.patternName

def Provided (dependencies : List String) (name : String) : Prop :=
  name ∈ Token.packages → name ∈ dependencies

namespace Covers

variable {dependencies : List String}

theorem standalone_receivers (h : file.Covers dependencies) (hne : file.runtime.segments ≠ []) :
    Standalone file.Receiver (fun _ => True) file.tokens := by
  have hpermits : Permits file.Receiver (fun _ => True) :=
    { value := .inl (by decide)
      url := .inl (by decide)
      address := .inl (by decide)
      record := .inl (by decide)
      segment := fun _ _ => trivial }
  have hrt : Standalone file.Receiver (fun _ => True) file.runtime.tokens :=
    Path.standalone_tokens hne fun _ _ => trivial
  refine standalone_tokens hpermits hrt (fun shape hshape => ⟨?_, fun _ => trivial⟩) fun _ =>
    ⟨trivial, trivial⟩
  intro hpattern
  exact .inr ⟨shape, h.patterns shape hshape hpattern, rfl⟩

theorem standalone_provided (h : file.Covers dependencies) (hne : file.runtime.segments ≠ [])
    (hruntime : ∀ name ∈ file.runtime.segments, name ∉ Token.packages) :
    Standalone (fun _ => True) (Provided dependencies) file.tokens := by
  have hpermits : Permits (fun _ => True) (Provided dependencies) :=
    { value := trivial
      url := trivial
      address := trivial
      record := trivial
      segment := fun name hfree hpackage => (hfree hpackage).elim }
  have hrt : Standalone (fun _ => True) (Provided dependencies) file.runtime.tokens :=
    Path.standalone_tokens hne fun name hname => hpermits.segment name (hruntime name hname)
  refine standalone_tokens hpermits hrt (fun shape hshape => ⟨fun _ => trivial, ?_⟩) ?_
  · rintro rfl -
    exact h.url hshape
  · intro hsome
    exact ⟨fun _ => (h.statics hsome).1, fun _ => (h.statics hsome).2⟩

theorem selfContained (h : file.Covers dependencies) (hne : file.runtime.segments ≠ [])
    (hruntime : ∀ name ∈ file.runtime.segments, name ∉ Token.packages) :
    file.SelfContained dependencies where
  declared shape hmatch := by
    have hpermitted := (h.standalone_receivers hne).permitted .other nofun
    rcases receiver_of_occurs hpermitted (hmatch.of_prefix ⟨_, rfl⟩) with hshort | hpattern
    · -- the name of a static is longer than the other receivers
      have hlength : (shape ++ "_PATTERN").length < 8 :=
        (by decide : ∀ w ∈ ["v", "u", "addr", "self"], w.length < 8) _ hshort
      rw [String.length_append] at hlength
      exact absurd hlength (Nat.not_lt_of_le (Nat.le_add_left 8 _))
    · exact (declares_iff hne hruntime).mpr hpattern
  packages package hpackage hname :=
    segment_of_occurs ((h.standalone_provided hne hruntime).permitted .other nofun) hname hpackage

end Covers

theorem SelfContained.covers {dependencies : List String} (h : file.SelfContained dependencies)
    (hne : file.runtime.segments ≠ [])
    (hruntime : ∀ name ∈ file.runtime.segments, name ∉ Token.packages) :
    file.Covers dependencies where
  patterns shape hshape hpattern := by
    have hmatch := occurs_tokens hshape (TextShape.occurs_match hpattern)
    obtain ⟨declared, hdeclared, hname⟩ := (declares_iff hne hruntime).mp (h.declared _ hmatch)
    rwa [TextShape.patternName_injective hname]
  url hurl := by
    have hname : Occurs (colons ++ [.word "url"]) TextShape.url.tokens := .here ⟨_, rfl⟩
    exact h.packages "url" (by decide) (occurs_tokens hurl hname)
  statics hsome := by
    obtain ⟨shape, hshape⟩ := List.exists_mem_of_ne_nil _ hsome
    have hregex : Occurs (colons ++ [.word "regex"])
        (block (file.patterns.flatMap TextShape.declaration)) :=
      .append_left _ (.later (.inside (.flatMap hshape shape.occurs_regex)))
    have hlazy : Occurs (colons ++ [.word "lazy_static"])
        (block (file.patterns.flatMap TextShape.declaration)) :=
      .here ⟨_, rfl⟩
    rw [← statics_eq_block hsome] at hregex hlazy
    exact ⟨h.packages _ (by decide) (hlazy.append_right _),
      h.packages _ (by decide) (hregex.append_right _)⟩

end SourceFile

/-! ### Source for a compiled record -/

namespace CompiledRecord

theorem compile_eq_ok {reg : Registry} {name : String} {record : CompiledRecord}
    (h : compile reg name = .ok record) :
    Schema.buildNamed reg name = .ok record.schema ∧
      record.patterns = patternsOf (Schema.fieldShapes record.fields) ∧
      record.dependencies = dependenciesOf (Schema.fieldShapes record.fields) := by
  obtain ⟨schema, hschema, h⟩ := except_bind_eq_ok.mp h
  cases schema with
  | record display fields =>
      cases h
      exact ⟨hschema, rfl, rfl⟩
  | _ => cases h

theorem mem_patternsOf {shape : TextShape} {shapes : List TextShape} :
    shape ∈ patternsOf shapes ↔ shape ∈ shapes ∧ shape.pattern?.isSome = true := by
  simp [patternsOf, TextShape.mem_all]

theorem url_mem_dependenciesOf {shapes : List TextShape} :
    "url" ∈ dependenciesOf shapes ↔ .url ∈ shapes := by
  unfold dependenciesOf
  split <;> simp

theorem mem_dependenciesOf_of_patternsOf {shapes : List TextShape} (h : patternsOf shapes ≠ []) :
    "lazy_static" ∈ dependenciesOf shapes ∧ "regex" ∈ dependenciesOf shapes := by
  simp [dependenciesOf, h]

end CompiledRecord

namespace TextShape

def NeedsPackage (shape : TextShape) : Prop := shape.pattern?.isSome = true ∨ shape = .url

instance (shape : TextShape) : Decidable shape.NeedsPackage := inferInstanceAs (Decidable (_ ∨ _))

end TextShape

namespace SourceFile

variable {file : SourceFile}

/-- With the patterns and the dependencies of a list of shapes, source covers what it tests if the
tests that use them are of shapes in the list. -/
theorem covers_iff {shapes : List TextShape}
    (hpatterns : file.patterns = CompiledRecord.patternsOf shapes) :
    file.Covers (CompiledRecord.dependenciesOf shapes) ↔
      ∀ shape ∈ file.shapes, shape.NeedsPackage → shape ∈ shapes := by
  constructor
  · rintro h shape hshape (hpattern | rfl)
    · have hmem := h.patterns shape hshape hpattern
      rw [hpatterns, CompiledRecord.mem_patternsOf] at hmem
      exact hmem.1
    · exact CompiledRecord.url_mem_dependenciesOf.mp (h.url hshape)
  · intro h
    exact
      { patterns := by
          intro shape hshape hpattern
          rw [hpatterns, CompiledRecord.mem_patternsOf]
          exact ⟨h shape hshape (.inl hpattern), hpattern⟩
        url := fun hurl => CompiledRecord.url_mem_dependenciesOf.mpr (h .url hurl (.inr rfl))
        statics := by
          intro hsome
          rw [hpatterns] at hsome
          exact CompiledRecord.mem_dependenciesOf_of_patternsOf hsome }

/-- Source emitted for a compiled record tests what is required of the fields of the records
collected for it, and declares the patterns of the compiled record. -/
theorem ofRecord_eq_ok {record : CompiledRecord} {runtime : String}
    (h : ofRecord record runtime = .ok file) :
    ∃ collected, Collector.records (record.display.getD record.name) record.fields = .ok collected ∧
      file.shapes = (collected.flatMap fun entry => entry.2.flatMap Field.shapes) ∧
      file.patterns = record.patterns ∧ file.runtime.segments ≠ [] := by
  obtain ⟨path, hpath, h⟩ := except_bind_eq_ok.mp h
  obtain ⟨collected, hcollected, h⟩ := except_bind_eq_ok.mp h
  obtain ⟨records, hrecords, h⟩ := except_bind_eq_ok.mp h
  cases h
  exact ⟨collected, hcollected, flatMap_of_mapM_eq_ok hrecords RecordItem.shapes_of_ofFields, rfl,
    Path.segments_ne_nil_of_parse hpath⟩

/-! ### Records behind skipped fields -/

theorem selfContained_of_hidesNone {reg : Registry} {name runtime : String}
    {record : CompiledRecord} (hcompile : CompiledRecord.compile reg name = .ok record)
    (hsource : ofRecord record runtime = .ok file)
    (hruntime : ∀ segment ∈ file.runtime.segments, segment ∉ Token.packages)
    (hhides : record.schema.EachRecord Schema.HidesNone) :
    file.SelfContained record.dependencies := by
  obtain ⟨-, hpatterns, hdependencies⟩ := CompiledRecord.compile_eq_ok hcompile
  obtain ⟨collected, hcollected, hshapes, hdeclared, hne⟩ := ofRecord_eq_ok hsource
  refine Covers.selfContained ?_ hne hruntime
  rw [hdependencies, covers_iff (hdeclared.trans hpatterns), hshapes]
  intro shape hshape _
  obtain ⟨⟨inner, fields⟩, hentry, hshape⟩ := List.mem_flatMap.mp hshape
  obtain ⟨f, hf, hshape⟩ := List.mem_flatMap.mp hshape
  have hrequired : shape ∈ Schema.fieldShapes fields :=
    Schema.mem_fieldShapes.mpr ⟨f, hf, .inl hshape⟩
  rcases Collector.mem_records hcollected _ hentry with heq | hpart
  · cases heq
    exact hrequired
  · exact Schema.shapes_of_mem_parts hhides (List.mem_cons_of_mem _ hpart) hrequired

/-- Source emitted for a compiled record is self-contained exactly if every shape that a field of a
collected record is tested for, and whose test needs a package, is required by the record through
fields that travel. -/
theorem selfContained_iff {reg : Registry} {name runtime : String} {record : CompiledRecord}
    (hcompile : CompiledRecord.compile reg name = .ok record)
    (hsource : ofRecord record runtime = .ok file)
    (hruntime : ∀ segment ∈ file.runtime.segments, segment ∉ Token.packages) :
    ∃ collected, Collector.records (record.display.getD record.name) record.fields = .ok collected ∧
      (file.SelfContained record.dependencies ↔
        ∀ entry ∈ collected, ∀ f ∈ entry.2, ∀ shape ∈ f.shapes, shape.NeedsPackage →
          shape ∈ Schema.fieldShapes record.fields) := by
  obtain ⟨-, hpatterns, hdependencies⟩ := CompiledRecord.compile_eq_ok hcompile
  obtain ⟨collected, hcollected, hshapes, hdeclared, hne⟩ := ofRecord_eq_ok hsource
  refine ⟨collected, hcollected, ?_⟩
  have hcovers : file.SelfContained record.dependencies ↔ file.Covers record.dependencies :=
    ⟨fun h => h.covers hne hruntime, fun h => h.selfContained hne hruntime⟩
  rw [hcovers, hdependencies, covers_iff (hdeclared.trans hpatterns), hshapes]
  simp only [List.forall_mem_flatMap]

/-- A contact, a session that caches one without sending it, and an account that also has an address
of its own. -/
def contactRegistry : Registry :=
  Registry.empty
    |>.define "Contact" (.struct [⟨"Email", .scalar .string, "email"⟩])
    |>.define "Session" (.struct [⟨"Cache", .named "Contact", "-"⟩])
    |>.define "Account" (.struct [⟨"Login", .scalar .string, "email"⟩,
        ⟨"Cache", .named "Contact", "-"⟩])

def emailField (name : String) : Field Schema :=
  ⟨name, .scalar .string none, false, [⟨name, .shape .email, false⟩]⟩

def cacheField : Field Schema := ⟨"Cache", .record (some "Contact") [emailField "Email"], true, []⟩

def emailItem (name description : String) : FieldItem :=
  ⟨⟨name, false⟩, .scalar .string, some ⟨[], [⟨name, description, .shape .email⟩]⟩⟩

def cacheItem : FieldItem := ⟨⟨"Cache", false⟩, .record ⟨"Contact", false⟩, none⟩

def contactItem : RecordItem :=
  ⟨⟨"Contact", false⟩, [emailItem "Email" "field 'Email' is not a valid email"]⟩

theorem selfContained_account :
    let record : CompiledRecord :=
      ⟨"Account", some "Account", [emailField "Login", cacheField], [.email],
        ["lazy_static", "regex"]⟩
    let file : SourceFile :=
      ⟨⟨false, ["recodec"]⟩, [.email],
        [⟨⟨"Account", false⟩, [emailItem "Login" "field 'Login' is not a valid email", cacheItem]⟩,
          contactItem]⟩
    CompiledRecord.compile contactRegistry "Account" = .ok record ∧
      ofRecord record "recodec" = .ok file ∧ file.SelfContained record.dependencies := by
  intro record file
  have hcompile : CompiledRecord.compile contactRegistry "Account" = .ok record := rfl
  have hsource : ofRecord record "recodec" = .ok file := by decide +kernel
  obtain ⟨collected, hcollected, hiff⟩ := selfContained_iff hcompile hsource (by decide)
  obtain rfl : collected = [("Account", record.fields), ("Contact", [emailField "Email"])] :=
    Except.ok.inj hcollected.symm
  exact ⟨hcompile, hsource, hiff.mpr (by decide)⟩

/-- What is required of the contact is not required of the session, so its source is not
self-contained. -/
theorem session_not_selfContained :
    let record : CompiledRecord := ⟨"Session", some "Session", [cacheField], [], []⟩
    let file : SourceFile :=
      ⟨⟨false, ["recodec"]⟩, [], [⟨⟨"Session", false⟩, [cacheItem]⟩, contactItem]⟩
    CompiledRecord.compile contactRegistry "Session" = .ok record ∧
      ofRecord record "recodec" = .ok file ∧ ¬ file.SelfContained record.dependencies := by
  intro record file
  refine ⟨rfl, by decide +kernel, fun h => ?_⟩
  have hcovers : file.Covers [] := h.covers (by decide) (by decide)
  have hdeclared : .email ∈ file.patterns := hcovers.patterns .email (by decide) rfl
  cases hdeclared

end SourceFile

end SchemaWire
