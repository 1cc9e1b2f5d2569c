import SchemaWire.Proofs.Codec.Gated
import SchemaWire.Proofs.Schema.Expansion

/-!
The schemas that the builder returns, against the declarations they come from.

A schema describes a type expression if it has its structure: names stand for the registered
expressions, fields come in the order of their declarations, a field with a dash in its tag has no
constraints and may be missing, and every other field has those that its tag compiles to. What the
builder returns describes what it was given, and a schema that describes an expression is well
formed at every depth.
-/

namespace SchemaWire

open Stateful

/-! ### Schemas and the declarations behind them -/

mutual

/-- The schema is one of the type expression, as far as the registry explains its names. -/
inductive Describes (reg : Registry) : TypeExpr → Schema → Prop where
  | named {name : String} {named : NamedType} {schema : Schema} :
      reg.resolve? name = some named → Describes reg named.underlying schema →
      Describes reg (.named name) (schema.withName named.display)
  | scalar {kind : Kind} : Describes reg (.scalar kind) (.scalar kind none)
  | pointer {elem : TypeExpr} {schema : Schema} :
      Describes reg elem schema → Describes reg (.pointer elem) (.optional schema)
  | array {n : Nat} {elem : TypeExpr} {schema : Schema} :
      Describes reg elem schema → Describes reg (.array n elem) (.array n schema none)
  | bytes {elem : TypeExpr} : elem.isByte = true → Describes reg (.slice elem) (.bytes none)
  | slice {elem : TypeExpr} {schema : Schema} :
      elem.isByte = false → Describes reg elem schema →
      Describes reg (.slice elem) (.sequence schema none)
  | map {key value : TypeExpr} {k v : Schema} :
      Describes reg key k → k.inner.scalarKind?.isSome = true → Describes reg value v →
      Describes reg (.map key value) (.map k v none)
  | struct {decls : List (FieldDecl TypeExpr)} {fields : FieldList} :
      DescribeFields reg decls fields → (fields.map (·.name)).Nodup →
      Describes reg (.struct decls) (.record none fields)

inductive DescribeFields (reg : Registry) : List (FieldDecl TypeExpr) → FieldList → Prop where
  | nil : DescribeFields reg [] []
  | dropped {d : FieldDecl TypeExpr} {decls : List (FieldDecl TypeExpr)} {fields : FieldList} :
      d.Dashed → DescribeFields reg decls fields → DescribeFields reg (d :: decls) fields
  | skipped {d : FieldDecl TypeExpr} {schema : Schema} {decls : List (FieldDecl TypeExpr)}
      {fields : FieldList} :
      d.Dashed → Describes reg d.type schema → DescribeFields reg decls fields →
      DescribeFields reg (d :: decls) (⟨d.name, schema, true, []⟩ :: fields)
  /-- the constraints are the entries of the tag, each compiled, in the order of the tag -/
  | declared {d : FieldDecl TypeExpr} {schema : Schema} {tag : Tag} {compiled : List Constraint}
      {decls : List (FieldDecl TypeExpr)} {fields : FieldList} :
      ¬ d.Dashed → Describes reg d.type schema → Tag.parse d.tag = .ok tag →
      tag.declarations.mapM (fun entry =>
        Constraint.compile entry.name entry.argument d.name schema) = .ok compiled →
      DescribeFields reg decls fields →
      DescribeFields reg (d :: decls) (⟨d.name, schema, false, compiled⟩ :: fields)

end

/-! ### What is well formed -/

/-- The fields of a record fit together: their names differ, a skipped field has no constraints, the
constraints of a field can stand at it, and its bounds are decided on a length prefix. -/
structure FieldList.WellFormed (fields : FieldList) : Prop where
  names : (fields.map (·.name)).Nodup
  skipped : ∀ f ∈ fields, f.skip = true → f.constraints = []
  fits : ∀ f ∈ fields, ∀ k ∈ f.constraints, k.Fits f.name f.type
  gated : ∀ f ∈ fields, ∀ k ∈ f.constraints, k.boundsLength = true → f.Gates k

namespace Schema

/-- What is required of one level of a schema: keys are scalars or optional scalars, and records
are well formed. -/
def WellFormedLevel : Schema → Prop
  | map key _ _ => key.inner.scalarKind?.isSome = true
  | record _ fields => FieldList.WellFormed fields
  | _ => True

def WellFormed (schema : Schema) : Prop := ∀ part ∈ schema.parts, part.WellFormedLevel

theorem WellFormed.withName {schema : Schema} (h : schema.WellFormed) (name : String) :
    (schema.withName name).WellFormed := by
  refine forall_parts_withName (fun {s _} hs => ?_) name h
  cases s <;> exact hs

theorem wellFormed_optional {elem : Schema} (h : elem.WellFormed) : (optional elem).WellFormed :=
  List.forall_mem_cons.mpr ⟨trivial, h⟩

theorem wellFormed_array {n : Nat} {elem : Schema} {name : Option String} (h : elem.WellFormed) :
    (array n elem name).WellFormed :=
  List.forall_mem_cons.mpr ⟨trivial, h⟩

theorem wellFormed_sequence {elem : Schema} {name : Option String} (h : elem.WellFormed) :
    (sequence elem name).WellFormed :=
  List.forall_mem_cons.mpr ⟨trivial, h⟩

theorem wellFormed_map {key val : Schema} {name : Option String} (hkey : key.WellFormed)
    (hscalar : key.inner.scalarKind?.isSome = true) (hval : val.WellFormed) :
    (map key val name).WellFormed :=
  List.forall_mem_cons.mpr ⟨hscalar, List.forall_mem_append.mpr ⟨hkey, hval⟩⟩

theorem wellFormed_record {name : Option String} {fields : FieldList}
    (hfields : FieldList.WellFormed fields) (htypes : ∀ f ∈ fields, f.type.WellFormed) :
    (record name fields).WellFormed := by
  refine List.forall_mem_cons.mpr ⟨hfields, fun part hpart => ?_⟩
  obtain ⟨f, hf, hpart⟩ := mem_fieldParts.mp hpart
  exact htypes f hf part hpart

end Schema

/-! ### What describes an expression is well formed -/

/-- What is true of a field by itself, whatever the others are. -/
structure Field.WellFormed (f : Field Schema) : Prop where
  type : f.type.WellFormed
  skipped : f.skip = true → f.constraints = []
  fits : ∀ k ∈ f.constraints, k.Fits f.name f.type
  gated : ∀ k ∈ f.constraints, k.boundsLength = true → f.Gates k

theorem Field.wellFormed_skipped {name : String} {schema : Schema} (h : schema.WellFormed) :
    Field.WellFormed ⟨name, schema, true, []⟩ where
  type := h
  skipped _ := rfl
  fits := nofun
  gated := nofun

theorem Field.wellFormed_declared {name : String} {schema : Schema} {tag : Tag}
    {compiled : List Constraint} (h : schema.WellFormed)
    (hcompiled : tag.declarations.mapM (fun entry =>
      Constraint.compile entry.name entry.argument name schema) = .ok compiled) :
    Field.WellFormed ⟨name, schema, false, compiled⟩ := by
  have hfits : ∀ k ∈ compiled, k.Fits name schema := by
    intro k hk
    obtain ⟨entry, -, hentry⟩ := forall_of_mapM_eq_ok hcompiled k hk
    exact Constraint.fits_of_compile hentry
  exact
    { type := h
      skipped := nofun
      fits := hfits
      gated := fun k hk hbounds =>
        Schema.gates_of_isPrefixed rfl hk hbounds ((hfits k hk).prefixed hbounds) }

variable {reg : Registry}

mutual

theorem Describes.wellFormed {type : TypeExpr} {schema : Schema} :
    Describes reg type schema → schema.WellFormed
  | .named _ h => h.wellFormed.withName _
  | .scalar => List.forall_mem_singleton.mpr trivial
  | .pointer h => Schema.wellFormed_optional h.wellFormed
  | .array h => Schema.wellFormed_array h.wellFormed
  | .bytes _ => List.forall_mem_singleton.mpr trivial
  | .slice _ h => Schema.wellFormed_sequence h.wellFormed
  | .map hkey hscalar hvalue => Schema.wellFormed_map hkey.wellFormed hscalar hvalue.wellFormed
  | .struct hfields hnames =>
    have hfields := hfields.wellFormed
    Schema.wellFormed_record
      { names := hnames
        skipped := fun f hf => (hfields f hf).skipped
        fits := fun f hf => (hfields f hf).fits
        gated := fun f hf => (hfields f hf).gated }
      fun f hf => (hfields f hf).type

theorem DescribeFields.wellFormed {decls : List (FieldDecl TypeExpr)} {fields : FieldList} :
    DescribeFields reg decls fields → ∀ f ∈ fields, f.WellFormed
  | .nil => nofun
  | .dropped _ h => h.wellFormed
  | .skipped _ htype h =>
    List.forall_mem_cons.mpr ⟨Field.wellFormed_skipped htype.wellFormed, h.wellFormed⟩
  | .declared _ htype _ hcompiled h =>
    List.forall_mem_cons.mpr
      ⟨Field.wellFormed_declared htype.wellFormed hcompiled, h.wellFormed⟩

end

/-! ### What the builder returns -/

namespace Builder

variable {expand : String → Builder Schema} {stack stack' : List String}

theorem layerFields_describes {decls : List (FieldDecl TypeExpr)}
    (hlayer : ∀ d ∈ decls, ∀ {stack schema stack'}, layer expand d.type stack = .ok schema stack' →
      Describes reg d.type schema)
    {front fields : FieldList} {stack stack' : List String}
    (hfront : (front.map (·.name)).Nodup)
    (h : layerFields expand front decls stack = .ok fields stack') :
    (fields.map (·.name)).Nodup ∧
      ∃ rest, fields = front ++ rest ∧ DescribeFields reg decls rest := by
  -- By induction on the declarations; each adds its field behind those in front of it.
  induction decls generalizing front stack with
  | nil =>
      obtain ⟨rfl, -⟩ := pure_eq_ok.mp h
      exact ⟨hfront, [], (List.append_nil _).symm, .nil⟩
  | cons d decls ih =>
      have ih := fun {front stack} =>
        @ih (fun x hx => hlayer x (List.mem_cons_of_mem d hx)) front stack
      rw [layerFields] at h
      split at h
      · exact (throw_ne_ok h).elim
      · next hnew =>
        have hgrow : ∀ {f : Field Schema}, f.name = d.name →
            ((front ++ [f]).map (·.name)).Nodup := by
          intro f hf
          exact nodup_names_append hfront (by simpa [hf] using hnew)
        obtain ⟨tag, mid, htag, h⟩ := bind_eq_ok.mp h
        have htag := (constraints_eq_ok.mp htag).1
        split at h
        · next hskip =>
          have hdashed : d.Dashed := (Tag.skip_iff_dashed htag).mp hskip
          obtain ⟨kept, mid', hkept, h⟩ := bind_eq_ok.mp h
          cases kept with
          | none =>
              rw [Option.toList_none, List.map_nil, List.append_nil] at h
              obtain ⟨hnames, rest, hrest, hdescribe⟩ := ih hfront h
              exact ⟨hnames, rest, hrest, .dropped hdashed hdescribe⟩
          | some type =>
              have htype := hlayer d List.mem_cons_self (attempt_eq_ok hkept type rfl)
              obtain ⟨hnames, rest, rfl, hdescribe⟩ := ih (hgrow rfl) h
              exact ⟨hnames, _, List.append_assoc .., .skipped hdashed htype hdescribe⟩
        · next hskip =>
          have hdashed : ¬ d.Dashed := fun hdash => hskip ((Tag.skip_iff_dashed htag).mpr hdash)
          obtain ⟨type, mid', htype, h⟩ := bind_eq_ok.mp h
          obtain ⟨compiled, mid'', hcompiled, h⟩ := bind_eq_ok.mp h
          have htype := hlayer d List.mem_cons_self (inField_eq_ok.mp htype)
          have hcompiled := (constraints_eq_ok.mp hcompiled).1
          obtain ⟨hnames, rest, rfl, hdescribe⟩ := ih (hgrow rfl) h
          exact ⟨hnames, _, List.append_assoc .., .declared hdashed htype htag hcompiled hdescribe⟩

theorem layer_describes
    (hexpand : ∀ {name stack schema stack'}, expand name stack = .ok schema stack' →
      Describes reg (.named name) schema)
    {type : TypeExpr} {schema : Schema} (h : layer expand type stack = .ok schema stack') :
    Describes reg type schema := by
  induction type generalizing schema stack stack' with
  | named name => exact hexpand h
  | scalar kind =>
      obtain ⟨rfl, -⟩ := pure_eq_ok.mp h
      exact .scalar
  | pointer elem ih =>
      obtain ⟨e, he, rfl⟩ := bind_pure_eq_ok.mp h
      exact .pointer (ih he)
  | array n elem ih =>
      obtain ⟨e, he, rfl⟩ := bind_pure_eq_ok.mp h
      exact .array (ih he)
  | slice elem ih =>
      rw [layer] at h
      split at h
      · next hbyte =>
        obtain ⟨rfl, -⟩ := pure_eq_ok.mp h
        exact .bytes hbyte
      · next hbyte =>
        obtain ⟨e, he, rfl⟩ := bind_pure_eq_ok.mp h
        exact .slice (Bool.eq_false_iff.mpr hbyte) (ih he)
  | map key value ihkey ihvalue =>
      obtain ⟨k, mid, hk, h⟩ := bind_eq_ok.mp h
      split at h
      · next hscalar =>
        obtain ⟨v, hv, rfl⟩ := bind_pure_eq_ok.mp h
        exact .map (ihkey hk) hscalar (ihvalue hv)
      · exact (throw_ne_ok h).elim
  | struct decls ih =>
      obtain ⟨fields, hfields, rfl⟩ := bind_pure_eq_ok.mp h
      have hnil : (([] : FieldList).map (·.name)).Nodup := List.nodup_nil
      obtain ⟨hnames, rest, rfl, hdescribe⟩ :=
        layerFields_describes (fun d hd _ _ _ => ih d hd) hnil hfields
      exact .struct hdescribe hnames
  | unsupported shape => exact (throw_ne_ok h).elim

theorem expand_describes {layers : Nat} {name : String} {schema : Schema}
    (h : Builder.expand reg layers name stack = .ok schema stack') :
    Describes reg (.named name) schema := by
  -- Without a layer left no name is expanded; otherwise the layer below expands the names.
  induction layers generalizing name stack stack' schema with
  | zero =>
      obtain ⟨named, mid, -, h⟩ := bind_eq_ok.mp h
      exact (throw_ne_ok h).elim
  | succ layers ih =>
      obtain ⟨named, mid, hnamed, h⟩ := bind_eq_ok.mp h
      obtain ⟨built, hbuilt, rfl⟩ := bind_pure_eq_ok.mp h
      obtain ⟨mid', hlayer, -⟩ := expanding_eq_ok.mp hbuilt
      exact .named (resolve_eq_ok.mp hnamed).1 (layer_describes ih hlayer)

end Builder

namespace Schema

theorem Buildable.wellFormed {schema : Schema} (h : schema.Buildable) : schema.WellFormed := by
  obtain ⟨reg, ⟨type, htype⟩ | ⟨name, hname⟩⟩ := h
  · obtain ⟨stack, htype⟩ := ofBuilder_eq_ok.mp htype
    have hdescribes := Builder.layer_describes (fun h => Builder.expand_describes h) htype
    exact hdescribes.wellFormed
  · obtain ⟨stack, hname⟩ := ofBuilder_eq_ok.mp hname
    exact (Builder.expand_describes hname).wellFormed

/-- Every schema that the builder returns is well formed: it describes the type it was built from,
with the constraints of each field compiled from its tag, and every level of it is well formed. -/
theorem build_wellFormed (reg : Registry) :
    (∀ type schema, build reg type = .ok schema → Describes reg type schema ∧ schema.WellFormed) ∧
    (∀ name schema, buildNamed reg name = .ok schema →
      Describes reg (.named name) schema ∧ schema.WellFormed) := by
  constructor
  · intro type schema h
    obtain ⟨stack, h⟩ := ofBuilder_eq_ok.mp h
    have hdescribes := Builder.layer_describes (fun h => Builder.expand_describes h) h
    exact ⟨hdescribes, hdescribes.wellFormed⟩
  · intro name schema h
    obtain ⟨stack, h⟩ := ofBuilder_eq_ok.mp h
    have hdescribes := Builder.expand_describes h
    exact ⟨hdescribes, hdescribes.wellFormed⟩

/-- A record with an alias, bounds on an optional text, choices, and two fields that do not
travel. -/
def userRegistry : Registry :=
  Registry.empty
    |>.define "Name" (.scalar .string)
    |>.define "User" (.struct [⟨"Name", .pointer (.named "Name"), "alpha, maxlen=10"⟩,
        ⟨"Age", .scalar (.num .uint8), "min=18,oneof=18 21"⟩,
        ⟨"Seen", .map (.named "Name") (.slice (.scalar (.num .uint8))), ""⟩,
        ⟨"Cache", .map (.scalar .string) (.named "Name"), "-"⟩,
        ⟨"Hook", .unsupported .function, "-"⟩])

def userSchema : Schema :=
  .record (some "User")
    [⟨"Name", .optional (.scalar .string (some "Name")), false,
        [⟨"Name", .shape .alpha, true⟩, ⟨"Name", .maxLen 10, true⟩]⟩,
      ⟨"Age", .scalar (.num .uint8) none, false,
        [⟨"Age", .min (.unsigned 18), false⟩,
          ⟨"Age", .oneOf [.unsigned 18, .unsigned 21], false⟩]⟩,
      ⟨"Seen", .map (.scalar .string (some "Name")) (.bytes none) none, false, []⟩,
      ⟨"Cache", .map (.scalar .string none) (.scalar .string (some "Name")) none, true, []⟩]

theorem build_wellFormed_user :
    buildNamed userRegistry "User" = .ok userSchema ∧
    Describes userRegistry (.named "User") userSchema ∧ userSchema.WellFormed ∧
    (Schema.optional userSchema).WellFormed := by
  have hnamed : buildNamed userRegistry "User" = .ok userSchema := rfl
  have hpointer : build userRegistry (.pointer (.named "User")) = .ok (.optional userSchema) := rfl
  have hwell := (build_wellFormed userRegistry).2 "User" userSchema hnamed
  have houter := (build_wellFormed userRegistry).1 _ _ hpointer
  exact ⟨hnamed, hwell.1, hwell.2, houter.2⟩

end Schema

end SchemaWire
