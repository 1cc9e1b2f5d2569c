import SchemaWire.Proofs.Source.Spelling
import SchemaWire.Proofs.Source.Tokens
import SchemaWire.Source.Layout

/-!
What the layout of emitted source permits. Whatever a record checks, the words before its dots are
those for the value under check and for the record, and the names of the patterns that it tests; and
the names after double colons are no packages, except for that of the parser that it tests addresses
with.
-/

namespace SchemaWire

namespace Token

/-- The packages that emitted source can use besides the runtime. -/
def packages : List String := ["lazy_static", "regex", "url"]

/-- What any source contains is permitted: dots behind the value under check, what was parsed out
of it, and the record; and paths that name no package. -/
structure Permits (receivers segments : String → Prop) : Prop where
  value : receivers "v"
  url : receivers "u"
  address : receivers "addr"
  record : receivers "self"
  segment : ∀ name, name ∉ packages → segments name

end Token

open Token

variable {receivers segments : String → Prop} {rt : List Token}

@[simp] theorem Identifier.next_token {p : Place} {id : Identifier} :
    p.next id.token = .word id.text := rfl

@[simp] theorem Identifier.permittedToken_token {p : Place} {id : Identifier} :
    PermittedToken receivers segments p id.token ↔ (p = .colons → segments id.text) := Iff.rfl

namespace Path

theorem intercalate_words (name : String) (names : List String) :
    colons.intercalate ((name :: names).map fun s => [.word s]) = .word name :: path names := by
  induction names generalizing name with
  | nil => rfl
  | cons next names ih =>
      have hrest := ih next
      rw [List.map_cons] at hrest
      rw [List.map_cons, List.map_cons, List.intercalate_cons_cons, hrest]
      simp [path]

theorem standalone_tokens {p : Path} (hne : p.segments ≠ [])
    (h : ∀ name ∈ p.segments, segments name) : Standalone receivers segments p.tokens := by
  obtain ⟨absolute, names⟩ := p
  obtain ⟨name, names, rfl⟩ := List.exists_cons_of_ne_nil hne
  have hrest : ∀ x ∈ names, segments x := fun x hx => h x (List.mem_cons_of_mem name hx)
  have hfirst : segments name := h name List.mem_cons_self
  have hpath : Standalone receivers segments (path names) := .path hrest
  rw [tokens, intercalate_words]
  cases absolute <;> constructor <;>
    simp +contextual [hfirst, hrest, hpath.ends]

theorem segments_ne_nil_of_parse {text : String} {p : Path} (h : parse text = .ok p) :
    p.segments ≠ [] := by
  have hsegments : ∀ rest, (pieces rest).map String.ofList ≠ [] := by
    intro rest hnil
    exact pieces_ne_nil rest (List.map_eq_nil_iff.mp hnil)
  simp only [parse] at h
  split at h <;> split at h <;> cases h <;> exact hsegments _

end Path

namespace SourceType

theorem standalone_tokens (hpermits : Permits receivers segments)
    (hrt : Standalone receivers segments rt) (type : SourceType) :
    Standalone receivers segments (type.tokens rt) := by
  have hname := hpermits.segment
  induction type with
  | scalar kind => cases kind <;> constructor <;> simp +contextual [tokens, hname, packages]
  | record name => constructor <;> simp +contextual [tokens]
  | array n elem ih => constructor <;> simp [tokens, ih.permitted]
  | optional elem ih | sequence elem ih =>
      constructor <;> simp [tokens, angles, hname, packages, ih.permitted]
  | map key value ihkey ihvalue =>
      constructor <;> simp [tokens, angles, hname, packages, ihkey.permitted, ihvalue.permitted]
  | bytes => constructor <;> simp +contextual [tokens, hname, packages, hrt.permitted]

theorem standalone_zero (hpermits : Permits receivers segments) (type : SourceType) :
    Standalone receivers segments type.zero := by
  have hname := hpermits.segment
  induction type with
  | array n elem ih => constructor <;> simp [zero, hname, packages, ih.permitted]
  | _ => constructor <;> simp [zero, hname, packages]

end SourceType

theorem SourceLiteral.standalone_tokens (hpermits : Permits receivers segments)
    (l : SourceLiteral) : Standalone receivers segments l.tokens := by
  have hname := hpermits.segment
  have hnumeral : ∀ negative magnitude suffix,
      Standalone receivers segments (signedNumeral negative magnitude suffix) := by
    intro negative magnitude suffix
    cases negative <;> constructor <;> simp [signedNumeral]
  have hconstant : ∀ type name, name ∉ packages →
      Standalone receivers segments (.word type :: path [name]) := by
    intro type name hfree
    constructor <;> simp +contextual [hname, hfree]
  cases l with
  | text s => constructor <;> simp [tokens]
  | flag b => constructor <;> simp +contextual [tokens]
  | whole n k => exact hnumeral _ _ _
  | float x k =>
      rw [tokens]
      split
      · exact hconstant _ _ (by decide)
      · split
        · split
          · exact hconstant _ _ (by decide)
          · exact hconstant _ _ (by decide)
        · exact hnumeral _ _ _

namespace TextShape

/-- The grammar permits what tests a shape beyond what any source contains: the name of its
pattern, and for addresses the package of their parser. -/
structure Tested (receivers segments : String → Prop) (shape : TextShape) : Prop where
  pattern : shape.pattern?.isSome = true → receivers shape.patternName
  package : shape = .url → segments "url"

theorem standalone_tokens (hpermits : Permits receivers segments) {shape : TextShape}
    (h : shape.Tested receivers segments) : Standalone receivers segments shape.tokens := by
  have hname := hpermits.segment
  cases shape with
  | url =>
      have hurl := h.package rfl
      constructor <;> simp [tokens, call, hname, hpermits.url, hurl, packages]
  | ip | ipv4 | ipv6 =>
      constructor <;>
        simp +contextual [tokens, parsedAddress, addressCase, angles, call, hname, packages,
          hpermits.value, hpermits.address]
  | _ =>
      have hpattern := h.pattern rfl
      constructor <;> simp +contextual [tokens, call, hpattern]

theorem standalone_declaration (hpermits : Permits receivers segments)
    (hregex : segments "regex") (shape : TextShape) :
    Standalone receivers segments shape.declaration := by
  have hname := hpermits.segment
  constructor <;> simp +contextual [declaration, call, hname, hregex, packages]

end TextShape

namespace Condition

def shapes : Condition → List TextShape
  | .shape s => [s]
  | _ => []

theorem standalone_compared (hpermits : Permits receivers segments) {operator : List Char}
    (h : operator ∈ [['=', '='], ['!', '='], ['<'], ['>']]) (l : SourceLiteral) :
    Standalone receivers segments (compared operator l) := by
  have hl := SourceLiteral.standalone_tokens hpermits l
  simp only [List.mem_cons, List.not_mem_nil, or_false] at h
  rcases h with rfl | rfl | rfl | rfl <;>
    constructor <;> simp [compared, signs, hl.permitted, hl.ends]

theorem standalone_tokens (hpermits : Permits receivers segments) {c : Condition}
    (h : ∀ shape ∈ c.shapes, shape.Tested receivers segments) :
    Standalone receivers segments c.tokens := by
  cases c with
  | shape s => exact s.standalone_tokens hpermits (h s List.mem_cons_self)
  | oneOf kind choices =>
      have hchoices : Standalone receivers segments
          (commas (choices.map SourceLiteral.tokens)) := by
        refine .commas fun item hitem => ?_
        obtain ⟨l, -, rfl⟩ := List.mem_map.mp hitem
        exact l.standalone_tokens hpermits
      rw [tokens]
      split <;> constructor <;>
        simp [call, hchoices.permitted, hpermits.value]
  | eq l | neq l => exact standalone_compared hpermits (by simp) l
  | min l | max l =>
      have hl : ∀ operator ∈ [['<'], ['>']], Standalone receivers segments (compared operator l) :=
        fun operator hoperator => standalone_compared hpermits (by simp_all) l
      constructor <;> simp [tokens, (hl ['<'] (by simp)).permitted, (hl ['>'] (by simp)).permitted]
  | minLen n | maxLen n =>
      constructor <;> simp +contextual [tokens, signs, ofLength]
  | _ => constructor <;> simp +contextual [tokens, call, hpermits.value]

end Condition

theorem Check.standalone_tokens (hpermits : Permits receivers segments)
    (hrt : Standalone receivers segments rt) {c : Check}
    (h : ∀ shape ∈ c.condition.shapes, shape.Tested receivers segments) :
    Standalone receivers segments (c.tokens rt) := by
  have hname := hpermits.segment
  have hcondition := c.condition.standalone_tokens hpermits h
  constructor <;>
    simp +contextual [tokens, hname, packages, hcondition.permitted, hrt.permitted]

@[simp] theorem FieldItem.next_variableAt {p : Place} {place : Nat} :
    p.next (variableAt place) = .word ("field" ++ toString place) := rfl

@[simp] theorem FieldItem.permittedToken_variableAt {p : Place} {place : Nat} :
    PermittedToken receivers segments p (variableAt place) ↔
      (p = .colons → segments ("field" ++ toString place)) := Iff.rfl

namespace Reading

def shapes (r : Reading) : List TextShape := (r.gates ++ r.checks).flatMap (·.condition.shapes)

variable {r : Reading}

theorem standalone_checks (hpermits : Permits receivers segments)
    (hrt : Standalone receivers segments rt)
    (h : ∀ shape ∈ r.shapes, shape.Tested receivers segments) :
    Standalone receivers segments (r.gates.flatMap (Check.tokens rt)) ∧
      Standalone receivers segments (r.checks.flatMap (Check.tokens rt)) := by
  have hcheck : ∀ c ∈ r.gates ++ r.checks, Standalone receivers segments (c.tokens rt) := by
    intro c hc
    refine c.standalone_tokens hpermits hrt fun shape hshape => h shape ?_
    exact List.mem_flatMap.mpr ⟨c, hc, hshape⟩
  constructor
  · exact .flatMap fun c hc => hcheck c (List.mem_append_left _ hc)
  · exact .flatMap fun c hc => hcheck c (List.mem_append_right _ hc)

theorem standalone_expression (hpermits : Permits receivers segments)
    (hrt : Standalone receivers segments rt) (type : SourceType)
    (h : ∀ shape ∈ r.shapes, shape.Tested receivers segments) :
    Standalone receivers segments (r.expression rt type) := by
  have hname := hpermits.segment
  have hgates := (standalone_checks hpermits hrt h).1
  have htype := type.standalone_tokens hpermits hrt
  have hinner := type.inner.standalone_tokens hpermits hrt
  have hreader : segments (if type.isOptional then "parse_gated_opt" else "parse_gated") := by
    split <;> simp [hname, packages]
  rw [expression]
  split
  · constructor <;> simp +contextual [angles, hname, packages, htype.permitted, hrt.permitted]
  · constructor <;>
      simp +contextual [angles, commas, List.intercalate_cons_cons, hname, packages, hreader,
        hinner.permitted, hrt.permitted, hgates.permitted]

theorem standalone_checking (hpermits : Permits receivers segments)
    (hrt : Standalone receivers segments rt) (type : SourceType) (place : Nat)
    (h : ∀ shape ∈ r.shapes, shape.Tested receivers segments) :
    Standalone receivers segments (r.checking rt type (FieldItem.variableAt place)) := by
  have hname := hpermits.segment
  have hchecks := (standalone_checks hpermits hrt h).2
  rw [checking]
  split
  · exact .nil
  · split <;> constructor <;> simp +contextual [hname, packages, hchecks.permitted]

end Reading

namespace FieldItem

def shapes (f : FieldItem) : List TextShape := f.reading.toList.flatMap Reading.shapes

variable {f : FieldItem}

theorem standalone_statements (hpermits : Permits receivers segments)
    (hrt : Standalone receivers segments rt) (place : Nat)
    (h : ∀ shape ∈ f.shapes, shape.Tested receivers segments) :
    Standalone receivers segments (f.statements rt place) := by
  have hname := hpermits.segment
  have htype := f.type.standalone_tokens hpermits hrt
  rw [statements]
  split
  · exact .nil
  · next r hr =>
    have h : ∀ shape ∈ r.shapes, shape.Tested receivers segments := by
      intro shape hshape
      exact h shape (by simpa [shapes, hr] using hshape)
    have hexpression := r.standalone_expression hpermits hrt f.type h
    have hchecking := r.standalone_checking hpermits hrt f.type place h
    constructor <;>
      simp +contextual [hname, packages, htype.permitted, hexpression.permitted,
        hchecking.permitted, hchecking.ends]

end FieldItem

namespace RecordItem

def shapes (r : RecordItem) : List TextShape := r.fields.flatMap FieldItem.shapes

variable {r : RecordItem}

theorem standalone_definition (hpermits : Permits receivers segments)
    (hrt : Standalone receivers segments rt) : Standalone receivers segments (r.definition rt) := by
  have hfields : Standalone receivers segments
      (r.fields.flatMap fun f => .word "pub" :: (f.set (f.type.tokens rt) ++ [sign ','])) := by
    refine .flatMap fun f _ => ?_
    have htype := f.type.standalone_tokens hpermits hrt
    have hname := hpermits.segment
    constructor <;>
      simp +contextual [FieldItem.set, htype.permitted, hname, packages]
  constructor <;>
    simp +contextual [definition, annotated, commas, List.intercalate_cons_cons,
      hfields.permitted]

theorem standalone_defaultImpl (hpermits : Permits receivers segments) :
    Standalone receivers segments r.defaultImpl := by
  have hname := hpermits.segment
  have hfields : Standalone receivers segments
      (commas (r.fields.map fun f => f.set f.type.zero)) := by
    refine .commas fun item hitem => ?_
    obtain ⟨f, -, rfl⟩ := List.mem_map.mp hitem
    have hzero := f.type.standalone_zero hpermits
    constructor <;>
      simp +contextual [FieldItem.set, hzero.permitted, hzero.ends]
  constructor <;>
    simp +contextual [defaultImpl, implementation, expression, hname, packages,
      hfields.permitted]

theorem standalone_encodeImpl (hpermits : Permits receivers segments)
    (hrt : Standalone receivers segments rt) : Standalone receivers segments (r.encodeImpl rt) := by
  have hname := hpermits.segment
  have hwrites : Standalone receivers segments
      ((r.fields.filter fun f => f.reading.isSome).flatMap fun f =>
        sign '+' :: (rt ++ (path ["conv", "Encode", "write_to"] ++
          [parens [sign '&', .word "self", sign '.', f.name.token, sign ',', .word "buf"]]))) := by
    refine .flatMap fun f _ => ?_
    constructor <;>
      simp +contextual [hname, packages, hpermits.record, hrt.permitted]
  constructor <;>
    simp +contextual [encodeImpl, implementation, angles, hname, packages,
      hrt.permitted, hwrites.permitted]

theorem standalone_decodeImpl (hpermits : Permits receivers segments)
    (hrt : Standalone receivers segments rt)
    (h : ∀ shape ∈ r.shapes, shape.Tested receivers segments) :
    Standalone receivers segments (r.decodeImpl rt) := by
  have hname := hpermits.segment
  have hstatements : Standalone receivers segments
      (r.fields.zipIdx.flatMap fun place => place.1.statements rt place.2) := by
    refine .flatMap fun place hplace => ?_
    refine place.1.standalone_statements hpermits hrt place.2 fun shape hshape => h shape ?_
    exact List.mem_flatMap.mpr ⟨place.1, List.fst_mem_of_mem_zipIdx hplace, hshape⟩
  have hfields : Standalone receivers segments
      (commas (r.fields.zipIdx.map fun place => place.1.setRead place.2)) := by
    refine .commas fun item hitem => ?_
    obtain ⟨⟨f, i⟩, -, rfl⟩ := List.mem_map.mp hitem
    have hzero := f.type.standalone_zero hpermits
    show Standalone receivers segments (f.setRead i)
    rw [FieldItem.setRead, FieldItem.set]
    split <;> constructor <;>
      simp +contextual [hzero.permitted, hzero.ends]
  constructor <;>
    simp +contextual [decodeImpl, implementation, expression, angles, hname,
      packages, hrt.permitted, hstatements.permitted, hfields.permitted]

theorem standalone_tokens (hpermits : Permits receivers segments)
    (hrt : Standalone receivers segments rt)
    (h : ∀ shape ∈ r.shapes, shape.Tested receivers segments) :
    Standalone receivers segments (r.tokens rt) := by
  have hdefinition := r.standalone_definition hpermits hrt
  have hdefault := r.standalone_defaultImpl hpermits
  have hencode := r.standalone_encodeImpl hpermits hrt
  have hdecode := r.standalone_decodeImpl hpermits hrt h
  exact ((hdefinition.append hdefault).append hencode).append hdecode

end RecordItem

namespace SourceFile

def shapes (file : SourceFile) : List TextShape := file.records.flatMap RecordItem.shapes

theorem standalone_statics (hpermits : Permits receivers segments) (hlazy : segments "lazy_static")
    (hregex : segments "regex") (patterns : List TextShape) :
    Standalone receivers segments (statics patterns) := by
  have hdeclarations : Standalone receivers segments
      (patterns.flatMap TextShape.declaration) :=
    .flatMap fun shape _ => shape.standalone_declaration hpermits hregex
  rw [statics]
  split
  · exact .nil
  · constructor <;> simp [hlazy, hdeclarations.permitted]

theorem standalone_records (hpermits : Permits receivers segments) {file : SourceFile}
    (hrt : Standalone receivers segments file.runtime.tokens)
    (h : ∀ shape ∈ file.shapes, shape.Tested receivers segments) :
    Standalone receivers segments
      (file.records.flatMap (RecordItem.tokens file.runtime.tokens)) := by
  refine .flatMap fun r hr => r.standalone_tokens hpermits hrt fun shape hshape => h shape ?_
  exact List.mem_flatMap.mpr ⟨r, hr, hshape⟩

end SourceFile

end SchemaWire
