import Mathlib.Data.List.Count
import SchemaWire.Proofs.Schema.Cycles
import SchemaWire.Proofs.Schema.WellFormed

/-!
Where a failure to build a schema is to be found.

A failure carries a path of field names. To follow it from the type that was to be built, one goes
down through names and containers to a struct and there into the field of the next name, and so on.
At the end of the path stands the fault that the failure reports: it is in the type that was
reached, and no further field lies between.
-/

namespace SchemaWire

open Relation Stateful

/-! ### Ways down -/

/-- A position inside of a type: the expression that stands there, and the names that have been
expanded on the way down to it, innermost first. -/
structure Place where
  trail : List String
  type : TypeExpr

/-- The first field of that name without a dash in its tag. -/
def TypeExpr.travelling? (name : String) (decls : List (FieldDecl TypeExpr)) :
    Option (FieldDecl TypeExpr) :=
  decls.find? fun d => d.name = name ∧ ¬ d.Dashed

/-- One step down, into what a name stands for or into what a container holds, but not into a
field. -/
inductive Registry.Descends (reg : Registry) : Place → Place → Prop where
  | name {trail : List String} {name : String} {named : NamedType} :
      reg.resolve? name = some named → name ∉ trail →
      Descends reg ⟨trail, .named name⟩ ⟨name :: trail, named.underlying⟩
  | pointer {trail : List String} {elem : TypeExpr} :
      Descends reg ⟨trail, .pointer elem⟩ ⟨trail, elem⟩
  | array {trail : List String} {n : Nat} {elem : TypeExpr} :
      Descends reg ⟨trail, .array n elem⟩ ⟨trail, elem⟩
  | slice {trail : List String} {elem : TypeExpr} :
      Descends reg ⟨trail, .slice elem⟩ ⟨trail, elem⟩
  | key {trail : List String} {key value : TypeExpr} :
      Descends reg ⟨trail, .map key value⟩ ⟨trail, key⟩
  | value {trail : List String} {key value : TypeExpr} :
      Descends reg ⟨trail, .map key value⟩ ⟨trail, value⟩

/-- The second place is in the first, and no field lies between. -/
abbrev Registry.Contains (reg : Registry) : Place → Place → Prop := ReflTransGen reg.Descends

inductive Registry.Leads (reg : Registry) : Place → List String → Place → Prop where
  | nil (place : Place) : Leads reg place [] place
  | field {place stop : Place} {trail : List String} {decls : List (FieldDecl TypeExpr)}
      {name : String} {d : FieldDecl TypeExpr} {path : List String} :
      reg.Contains place ⟨trail, .struct decls⟩ → TypeExpr.travelling? name decls = some d →
      Leads reg ⟨trail, d.type⟩ path stop → Leads reg place (name :: path) stop

/-! ### Faults -/

/-- The tag of the field is malformed, or one of its entries does not fit the type of the field. -/
def FieldDecl.Rejected (reg : Registry) (d : FieldDecl TypeExpr) (cause : ConstraintError) : Prop :=
  Tag.parse d.tag = .error cause ∨
    ∃ tag schema, Tag.parse d.tag = .ok tag ∧ tag.skip = false ∧ Describes reg d.type schema ∧
      ∃ entry ∈ tag.declarations,
        Constraint.compile entry.name entry.argument d.name schema = .error cause

/-- The place contains what the error is about, and that adds these names to the path. -/
inductive Registry.Fault (reg : Registry) (place : Place) : SchemaError → List String → Prop where
  | constraint {trail : List String} {decls : List (FieldDecl TypeExpr)} {d : FieldDecl TypeExpr}
      {cause : ConstraintError} :
      reg.Contains place ⟨trail, .struct decls⟩ → d ∈ decls → d.Rejected reg cause →
      Fault reg place (.constraint d.name cause) [d.name]
  | unknown {trail : List String} {name : String} :
      reg.Contains place ⟨trail, .named name⟩ → reg.resolve? name = none →
      Fault reg place (.unknown name) []
  | unsupported {trail : List String} {shape : UnsupportedShape} :
      reg.Contains place ⟨trail, .unsupported shape⟩ → Fault reg place (.unsupported shape) []
  | invalidMapKey {trail : List String} {key value : TypeExpr} {schema : Schema} :
      reg.Contains place ⟨trail, .map key value⟩ → Describes reg key schema →
      schema.inner.scalarKind? = none → Fault reg place (.invalidMapKey schema.text) []
  | duplicateField {trail : List String} {decls : List (FieldDecl TypeExpr)} {name : String} :
      reg.Contains place ⟨trail, .struct decls⟩ → 2 ≤ (decls.map (·.name)).count name →
      Fault reg place (.duplicateField name) []
  | cyclic {trail : List String} {name : String} {named : NamedType} :
      reg.Contains place ⟨trail, .named name⟩ → name ∈ trail → reg.resolve? name = some named →
      Fault reg place (.cyclic named.display) []

/-- The path of the error leads from the place to one with the fault that the error reports. -/
def Registry.Locates (reg : Registry) (place : Place) (e : SchemaError) : Prop :=
  ∃ path stop last, e.path = path ++ last ∧ reg.Leads place path stop ∧ reg.Fault stop e.root last

namespace Registry

variable {reg : Registry} {place next : Place} {e : SchemaError}

theorem Fault.of_contains {last : List String} (hcontains : reg.Contains place next)
    (h : reg.Fault next e last) : reg.Fault place e last := by
  cases h with
  | constraint h hd hrejected => exact .constraint (hcontains.trans h) hd hrejected
  | unknown h hname => exact .unknown (hcontains.trans h) hname
  | unsupported h => exact .unsupported (hcontains.trans h)
  | invalidMapKey h hkey hscalar => exact .invalidMapKey (hcontains.trans h) hkey hscalar
  | duplicateField h hcount => exact .duplicateField (hcontains.trans h) hcount
  | cyclic h hmem hnamed => exact .cyclic (hcontains.trans h) hmem hnamed

namespace Locates

theorem of_descends (hdown : reg.Descends place next) (h : reg.Locates next e) :
    reg.Locates place e := by
  obtain ⟨path, stop, last, hpath, hleads, hfault⟩ := h
  cases hleads with
  | nil => exact ⟨[], place, last, hpath, .nil place, hfault.of_contains (.single hdown)⟩
  | field hcontains hd hleads =>
      exact ⟨_, stop, last, hpath, .field (hcontains.head hdown) hd hleads, hfault⟩

theorem of_fault (h : reg.Fault place e e.path) (hroot : e.root = e) : reg.Locates place e :=
  ⟨[], place, e.path, rfl, .nil place, by rwa [hroot]⟩

theorem of_field {trail : List String} {decls : List (FieldDecl TypeExpr)}
    {d : FieldDecl TypeExpr} (hd : TypeExpr.travelling? d.name decls = some d)
    (h : reg.Locates ⟨trail, d.type⟩ e) :
    reg.Locates ⟨trail, .struct decls⟩ (.field d.name e) := by
  obtain ⟨path, stop, last, hpath, hleads, hfault⟩ := h
  refine ⟨d.name :: path, stop, last, ?_, .field .refl hd hleads, hfault⟩
  rw [SchemaError.path, hpath, List.cons_append]

end Locates

end Registry

/-! ### Failures of the builder -/

namespace Builder

variable {reg : Registry} {expand : String → Builder Schema} {stack stack' : List String}
  {e : SchemaError}

/-- What is known of the fields that have been built from the declarations so far: every name among
them is declared, and no field without a dash is missing. -/
structure Gathered (done : List (FieldDecl TypeExpr)) (front : FieldList) : Prop where
  declared : ∀ f ∈ front, f.name ∈ done.map (·.name)
  complete : ∀ d ∈ done, ¬ d.Dashed → ∃ f ∈ front, f.name = d.name

namespace Gathered

variable {done : List (FieldDecl TypeExpr)} {front : FieldList} {d : FieldDecl TypeExpr}

theorem nil : Gathered [] [] := ⟨List.forall_mem_nil _, List.forall_mem_nil _⟩

theorem append (h : Gathered done front) {back : FieldList} (hnames : ∀ f ∈ back, f.name = d.name)
    (hback : ¬ d.Dashed → back ≠ []) : Gathered (done ++ [d]) (front ++ back) where
  declared f hf := by
    rw [List.map_append, List.mem_append]
    rcases List.mem_append.mp hf with hf | hf
    · exact .inl (h.declared f hf)
    · exact .inr (List.mem_singleton.mpr (hnames f hf))
  complete x hx hdashed := by
    rcases List.mem_append.mp hx with hx | hx
    · obtain ⟨f, hf, hname⟩ := h.complete x hx hdashed
      exact ⟨f, List.mem_append_left _ hf, hname⟩
    · obtain rfl := List.mem_singleton.mp hx
      obtain ⟨f, hf⟩ := List.exists_mem_of_ne_nil back (hback hdashed)
      exact ⟨f, List.mem_append_right _ hf, hnames f hf⟩

theorem two_le_count (h : Gathered done front) (hmem : (front.any fun f => f.name = d.name) = true)
    (decls : List (FieldDecl TypeExpr)) :
    2 ≤ ((done ++ d :: decls).map (·.name)).count d.name := by
  obtain ⟨f, hf, hname⟩ := List.any_eq_true.mp hmem
  have hdone : d.name ∈ done.map (·.name) := by
    have hf := h.declared f hf
    rwa [of_decide_eq_true hname] at hf
  have hpos := List.count_pos_iff.mpr hdone
  rw [List.map_append, List.map_cons, List.count_append, List.count_cons_self]
  omega

theorem travelling? (h : Gathered done front) (hnew : ¬ (front.any fun f => f.name = d.name) = true)
    (hdashed : ¬ d.Dashed) (decls : List (FieldDecl TypeExpr)) :
    TypeExpr.travelling? d.name (done ++ d :: decls) = some d := by
  have hdone : ∀ x ∈ done, ¬ (x.name = d.name ∧ ¬ x.Dashed) := by
    rintro x hx ⟨hname, hx'⟩
    obtain ⟨f, hf, hf'⟩ := h.complete x hx hx'
    exact hnew (List.any_eq_true.mpr ⟨f, hf, decide_eq_true (hf'.trans hname)⟩)
  have hnone : done.find? (fun x => decide (x.name = d.name ∧ ¬ x.Dashed)) = none :=
    List.find?_eq_none.mpr fun x hx => by simpa using hdone x hx
  rw [TypeExpr.travelling?, List.find?_append, hnone, Option.none_or, List.find?_cons_of_pos]
  exact decide_eq_true ⟨rfl, hdashed⟩

end Gathered

open Registry

theorem layerFields_locates (hexpand : ∀ name, Restores (expand name))
    (hdescribes : ∀ {type stack schema stack'}, layer expand type stack = .ok schema stack' →
      Describes reg type schema)
    {all done decls : List (FieldDecl TypeExpr)} (hall : all = done ++ decls)
    (hlayer : ∀ d ∈ decls, ∀ {e stack'}, layer expand d.type stack = .error e stack' →
      reg.Locates ⟨stack, d.type⟩ e)
    {front : FieldList} (hfront : Gathered done front)
    (h : layerFields expand front decls stack = .error e stack') :
    reg.Locates ⟨stack, .struct all⟩ e := by
  -- By induction on the declarations ahead; those behind have been gathered.
  induction decls generalizing done front with
  | nil => exact (pure_ne_error h).elim
  | cons d decls ih =>
      have hd : d ∈ all := by
        rw [hall]
        exact List.mem_append_right done List.mem_cons_self
      have htype := layer_restores hexpand d.type
      have hahead : ∀ {back : FieldList}, (∀ f ∈ back, f.name = d.name) →
          (¬ d.Dashed → back ≠ []) →
          layerFields expand (front ++ back) decls stack = .error e stack' →
          reg.Locates ⟨stack, .struct all⟩ e := by
        intro back hnames hback h
        refine ih ?_ (fun x hx => hlayer x (List.mem_cons_of_mem d hx))
          (hfront.append hnames hback) h
        rw [hall, List.append_assoc, List.singleton_append]
      have hrejected : ∀ {cause}, d.Rejected reg cause →
          reg.Locates ⟨stack, .struct all⟩ (.constraint d.name cause) :=
        fun hcause => .of_fault (.constraint .refl hd hcause) rfl
      rw [layerFields] at h
      split at h
      · next hmem =>
        obtain ⟨rfl, -⟩ := throw_eq_error.mp h
        have hcount := hfront.two_le_count hmem decls
        rw [← hall] at hcount
        exact .of_fault (.duplicateField .refl hcount) rfl
      · next hnew =>
        rcases (Restores.constraints d.name _).bind_error h with htag | ⟨tag, htag, h⟩
        · obtain ⟨cause, hcause, rfl, -⟩ := constraints_eq_error.mp htag
          exact hrejected (.inl hcause)
        have htag := (constraints_eq_ok.mp htag).1
        split at h
        · next hskip =>
          rcases htype.attempt.bind_error h with hkept | ⟨kept, -, h⟩
          · exact (attempt_ne_error hkept).elim
          · have hdashed : d.Dashed := (Tag.skip_iff_dashed htag).mp hskip
            refine hahead (fun f hf => ?_) (fun hnot => (hnot hdashed).elim) h
            obtain ⟨schema, -, rfl⟩ := List.mem_map.mp hf
            rfl
        · next hskip =>
          have hdashed : ¬ d.Dashed := fun hdash => hskip ((Tag.skip_iff_dashed htag).mpr hdash)
          rcases (htype.inField d.name).bind_error h with hschema | ⟨schema, hschema, h⟩
          · obtain ⟨cause, hcause, rfl⟩ := inField_eq_error.mp hschema
            have htravelling := hfront.travelling? hnew hdashed decls
            rw [← hall] at htravelling
            exact .of_field htravelling (hlayer d List.mem_cons_self hcause)
          rcases (Restores.constraints d.name _).bind_error h with hcompiled | ⟨compiled, -, h⟩
          · obtain ⟨cause, hcause, rfl, -⟩ := constraints_eq_error.mp hcompiled
            have hschema := hdescribes (inField_eq_ok.mp hschema)
            obtain ⟨entry, hentry, hcompile⟩ := exists_of_mapM_eq_error hcause
            exact hrejected
              (.inr ⟨tag, schema, htag, by simpa using hskip, hschema, entry, hentry, hcompile⟩)
          · refine hahead (fun f hf => ?_) (fun _ => List.cons_ne_nil _ _) h
            rw [List.mem_singleton.mp hf]

theorem layer_locates (hexpand : ∀ name, Restores (expand name))
    (hdescribes : ∀ {type stack schema stack'}, layer expand type stack = .ok schema stack' →
      Describes reg type schema)
    (hlocates : ∀ {name e stack'}, expand name stack = .error e stack' →
      reg.Locates ⟨stack, .named name⟩ e)
    {type : TypeExpr} (h : layer expand type stack = .error e stack') :
    reg.Locates ⟨stack, type⟩ e := by
  induction type generalizing e stack' with
  | named name => exact hlocates h
  | scalar kind => exact (pure_ne_error h).elim
  | pointer elem ih => exact (ih (bind_pure_eq_error.mp h)).of_descends .pointer
  | array n elem ih => exact (ih (bind_pure_eq_error.mp h)).of_descends .array
  | slice elem ih =>
      rw [layer] at h
      split at h
      · exact (pure_ne_error h).elim
      · exact (ih (bind_pure_eq_error.mp h)).of_descends .slice
  | map key value ihkey ihvalue =>
      rcases (layer_restores hexpand key).bind_error h with hkey | ⟨schema, hkey, h⟩
      · exact (ihkey hkey).of_descends .key
      split at h
      · exact (ihvalue (bind_pure_eq_error.mp h)).of_descends .value
      · next hscalar =>
        obtain ⟨rfl, -⟩ := throw_eq_error.mp h
        have hnone : schema.inner.scalarKind? = none := by simpa using hscalar
        exact .of_fault (.invalidMapKey .refl (hdescribes hkey) hnone) rfl
  | struct decls ih =>
      exact layerFields_locates hexpand hdescribes rfl (fun d hd _ _ => ih d hd) .nil
        (bind_pure_eq_error.mp h)
  | unsupported shape =>
      obtain ⟨rfl, -⟩ := throw_eq_error.mp h
      exact .of_fault (.unsupported .refl) rfl

theorem resolve_locates {name : String} (h : resolve reg name stack = .error e stack') :
    reg.Locates ⟨stack, .named name⟩ e := by
  obtain ⟨-, ⟨hnone, rfl⟩ | ⟨named, hnamed, hmem, rfl⟩⟩ := resolve_eq_error.mp h
  · exact .of_fault (.unknown .refl hnone) rfl
  · exact .of_fault (.cyclic .refl hmem hnamed) rfl

theorem expand_locates {layers : Nat} {name : String} (hroom : reg.Room layers stack)
    (h : Builder.expand reg layers name stack = .error e stack') :
    reg.Locates ⟨stack, .named name⟩ e := by
  induction layers generalizing name stack stack' e with
  | zero =>
      rcases (resolve_restores reg name).bind_error h with hresolve | ⟨named, hresolve, -⟩
      · exact resolve_locates hresolve
      · obtain ⟨hnamed, hfresh, -⟩ := resolve_eq_ok.mp hresolve
        exact (hfresh (hroom.mem_of_full (mem_names_of_resolve hnamed))).elim
  | succ layers ih =>
      rcases (resolve_restores reg name).bind_error h with hresolve | ⟨named, hresolve, h⟩
      · exact resolve_locates hresolve
      · obtain ⟨hnamed, hfresh, -⟩ := resolve_eq_ok.mp hresolve
        obtain ⟨mid, hlayer, -⟩ := expanding_eq_error.mp (bind_pure_eq_error.mp h)
        have hroom' := hroom.push (mem_names_of_resolve hnamed) hfresh
        have hlocates := layer_locates (expand_restores reg layers)
          (layer_describes expand_describes) (ih hroom') hlayer
        exact hlocates.of_descends (.name hnamed hfresh)

end Builder

theorem SchemaError.root_ne_field (e : SchemaError) (name : String) (cause : SchemaError) :
    e.root ≠ .field name cause := by
  induction e with
  | field inner e ih => exact ih
  | _ => nofun

namespace Schema

/-- Failures to build a schema point at the real place: the root of the failure is none that stands
for a field, and its path leads, from what was to be built, to the fault that it reports. -/
theorem build_locates (reg : Registry) :
    (∀ type e, build reg type = .error e →
      (∀ name cause, e.root ≠ .field name cause) ∧ reg.Locates ⟨[], type⟩ e) ∧
    (∀ name e, buildNamed reg name = .error e →
      (∀ name cause, e.root ≠ .field name cause) ∧ reg.Locates ⟨[], .named name⟩ e) := by
  have hroom := Registry.Room.start reg
  constructor
  · intro type e h
    obtain ⟨stack, h⟩ := ofBuilder_eq_error.mp h
    refine ⟨e.root_ne_field, Builder.layer_locates (Builder.expand_restores reg reg.size)
      (Builder.layer_describes Builder.expand_describes) (Builder.expand_locates hroom) h⟩
  · intro name e h
    obtain ⟨stack, h⟩ := ofBuilder_eq_error.mp h
    exact ⟨e.root_ne_field, Builder.expand_locates hroom h⟩

/-- Orders with lines, whose notes have a tag that says nothing that is known. -/
def orderRegistry : Registry :=
  Registry.empty
    |>.define "Line" (.struct [⟨"Count", .scalar (.num .uint8), "min=1"⟩,
        ⟨"Note", .scalar .string, "-, short"⟩])
    |>.define "Order" (.struct [⟨"Number", .scalar (.num .uint32), ""⟩,
        ⟨"Lines", .map (.scalar .string) (.slice (.named "Line")), "" ⟩])

theorem build_locates_order :
    let inTag : SchemaError := .field "Lines" (.constraint "Note" (.unknown "short"))
    let inCycle : SchemaError := .field "B" (.field "A" (.cyclic "A"))
    build orderRegistry (.pointer (.named "Order")) = .error inTag ∧
    orderRegistry.Locates ⟨[], .pointer (.named "Order")⟩ inTag ∧
    inTag.path = ["Lines", "Note"] ∧
    buildNamed sampleRegistry "A" = .error inCycle ∧
    sampleRegistry.Locates ⟨[], .named "A"⟩ inCycle ∧ inCycle.path = ["B", "A"] := by
  intro inTag inCycle
  have htag : build orderRegistry (.pointer (.named "Order")) = .error inTag := rfl
  have hcycle : buildNamed sampleRegistry "A" = .error inCycle := rfl
  exact ⟨htag, ((build_locates orderRegistry).1 _ _ htag).2, rfl,
    hcycle, ((build_locates sampleRegistry).2 _ _ hcycle).2, rfl⟩

end Schema

end SchemaWire
