import SchemaWire.Proofs.Schema.Cycles
import SchemaWire.Proofs.Schema.Wire

/-!
What stands under a skipped field has no influence on a build.

An expression is laid bare by putting the empty struct in place of the types of its skipped fields.
It is compared with its bare form, step by step and over two registries: the builders return the
same error, or schemas that differ in skipped fields only. Expressions with the same bare form are
then compared through it. The two stacks need not be equal: a schema that is found below more names
is also found below fewer.
-/

namespace SchemaWire

/-! ### Bare expressions -/

mutual

/-- The expression with the empty struct as the type of every field whose tag has a dash. -/
def TypeExpr.bare : TypeExpr → TypeExpr
  | .named name => .named name
  | .scalar kind => .scalar kind
  | .pointer elem => .pointer elem.bare
  | .array length elem => .array length elem.bare
  | .slice elem => .slice elem.bare
  | .map key value => .map key.bare value.bare
  | .struct decls => .struct (bareDecls decls)
  | .unsupported shape => .unsupported shape

def TypeExpr.bareDecls : List (FieldDecl TypeExpr) → List (FieldDecl TypeExpr)
  | [] => []
  | ⟨name, type, tag⟩ :: decls =>
    let d : FieldDecl TypeExpr := ⟨name, type, tag⟩
    ⟨name, if d.Dashed then .struct [] else type.bare, tag⟩ :: bareDecls decls

end

mutual

/-- No struct in the expression declares the name of a field twice, apart from the types of fields
whose tag has a dash. -/
def TypeExpr.DistinctFields : TypeExpr → Prop
  | .named _ | .scalar _ | .unsupported _ => True
  | .pointer elem | .array _ elem | .slice elem => elem.DistinctFields
  | .map key value => key.DistinctFields ∧ value.DistinctFields
  | .struct decls => (decls.map (·.name)).Nodup ∧ DistinctDecls decls

def TypeExpr.DistinctDecls : List (FieldDecl TypeExpr) → Prop
  | [] => True
  | ⟨name, type, tag⟩ :: decls =>
    (¬ (⟨name, type, tag⟩ : FieldDecl TypeExpr).Dashed → type.DistinctFields) ∧ DistinctDecls decls

end

namespace TypeExpr

theorem distinctDecls_iff {decls : List (FieldDecl TypeExpr)} :
    DistinctDecls decls ↔ ∀ d ∈ decls, ¬ d.Dashed → d.type.DistinctFields := by
  induction decls with
  | nil => simp [DistinctDecls]
  | cons d decls ih => simp [DistinctDecls, ih]

@[simp] theorem isByte_bare (type : TypeExpr) : type.bare.isByte = type.isByte := by
  cases type <;> rfl

@[simp] theorem names_bareDecls (decls : List (FieldDecl TypeExpr)) :
    (bareDecls decls).map (·.name) = decls.map (·.name) := by
  induction decls with
  | nil => rfl
  | cons d decls ih => rw [bareDecls, List.map_cons, List.map_cons, ih]

theorem distinctFields_bare (type : TypeExpr) :
    type.bare.DistinctFields ↔ type.DistinctFields := by
  induction type with
  | named | scalar | unsupported => rfl
  | pointer elem ih | array _ elem ih | slice elem ih => exact ih
  | map key value ihkey ihvalue => exact and_congr ihkey ihvalue
  | struct decls ih =>
      have htypes : DistinctDecls (bareDecls decls) ↔ DistinctDecls decls := by
        induction decls with
        | nil => rfl
        | cons d decls ihdecls =>
            have hrest := ihdecls fun x hx => ih x (List.mem_cons_of_mem d hx)
            rw [bareDecls, DistinctDecls, DistinctDecls, hrest]
            refine and_congr_left' (imp_congr_right fun hdashed => ?_)
            have hplain : ¬ d.Dashed := hdashed
            rw [if_neg hplain]
            exact ih d List.mem_cons_self
      simp only [bare, DistinctFields, names_bareDecls, htypes]

end TypeExpr

def NamedType.bare (named : NamedType) : NamedType :=
  ⟨named.display, named.underlying.bare⟩

namespace Registry

def bare (reg : Registry) : Registry :=
  ⟨reg.entries.map fun (name, named) => (name, named.bare)⟩

def DistinctFields (reg : Registry) : Prop :=
  ∀ name named, reg.resolve? name = some named → named.underlying.DistinctFields

variable {reg : Registry}

theorem distinctFields_of_entries
    (h : ∀ entry ∈ reg.entries, entry.2.underlying.DistinctFields) : reg.DistinctFields :=
  fun name named hnamed => h (name, named) (mem_of_lookup hnamed)

@[simp] theorem resolve?_bare (name : String) :
    reg.bare.resolve? name = (reg.resolve? name).map NamedType.bare := by
  rw [resolve?, resolve?, bare]
  induction reg.entries with
  | nil => rfl
  | cons entry entries ih =>
      rw [List.map_cons, lookup, lookup, ih]
      split <;> rfl

theorem DistinctFields.of_bare {reg' : Registry} (h : reg.DistinctFields)
    (hreg : ∀ name, (reg'.resolve? name).map NamedType.bare =
      (reg.resolve? name).map NamedType.bare) :
    reg'.DistinctFields := by
  intro name named' hnamed'
  have hbare := hreg name
  rw [hnamed', Option.map_some, eq_comm, Option.map_eq_some_iff] at hbare
  obtain ⟨named, hnamed, hsame⟩ := hbare
  have hunderlying : named.underlying.bare = named'.underlying.bare :=
    congrArg NamedType.underlying hsame
  rw [← TypeExpr.distinctFields_bare, ← hunderlying, TypeExpr.distinctFields_bare]
  exact h name named hnamed

end Registry

/-! ### Two runs of a builder -/

namespace Builder

open Stateful

variable {α β : Type} {stack stack' : List String} {strict : Prop}

/-- What the first builder returns on the first stack, the second one also returns on the second
stack, up to `R`; if it is strict, it fails where the first one does, with the same error. The
stacks are left as they were. -/
structure Tracks (strict : Prop) (stack stack' : List String) (R : α → α → Prop)
    (body body' : Builder α) : Prop where
  ok : ∀ {a mid}, body stack = .ok a mid → mid = stack ∧ ∃ b, body' stack' = .ok b stack' ∧ R a b
  error : strict → ∀ {e mid}, body stack = .error e mid →
    mid = stack ∧ body' stack' = .error e stack'

namespace Tracks

variable {R : α → α → Prop} {S : β → β → Prop} {body body' : Builder α}

protected theorem pure {a b : α} (h : R a b) :
    Tracks strict stack stack' R (pure a) (pure b) where
  ok hrun := by
    obtain ⟨rfl, rfl⟩ := pure_eq_ok.mp hrun
    exact ⟨rfl, b, rfl, h⟩
  error _ _ _ hrun := (pure_ne_error hrun).elim

protected theorem throw (e : SchemaError) :
    Tracks strict stack stack' R (throw e) (throw e) where
  ok hrun := (throw_ne_ok hrun).elim
  error _ _ _ hrun := by
    obtain ⟨rfl, rfl⟩ := throw_eq_error.mp hrun
    exact ⟨rfl, rfl⟩

/-- A failure asks nothing of the other builder, unless the comparison is strict. -/
theorem throw_of_lax (hlax : ¬ strict) (e : SchemaError) (body' : Builder α) :
    Tracks strict stack stack' R (throw e) body' where
  ok hrun := (throw_ne_ok hrun).elim
  error hstrict := (hlax hstrict).elim

protected theorem bind {next next' : α → Builder β}
    (h : Tracks strict stack stack' R body body')
    (hnext : ∀ a b, R a b → Tracks strict stack stack' S (next a) (next' b)) :
    Tracks strict stack stack' S (body >>= next) (body' >>= next') where
  ok hrun := by
    obtain ⟨a, mid, hbody, hthen⟩ := bind_eq_ok.mp hrun
    obtain ⟨rfl, b, hbody', hab⟩ := h.ok hbody
    rw [bind_of_ok hbody']
    exact (hnext a b hab).ok hthen
  error hstrict _ _ hrun := by
    rcases bind_eq_error.mp hrun with hbody | ⟨a, mid, hbody, hthen⟩
    · obtain ⟨rfl, hbody'⟩ := h.error hstrict hbody
      exact ⟨rfl, bind_of_error hbody'⟩
    · obtain ⟨rfl, b, hbody', hab⟩ := h.ok hbody
      rw [bind_of_ok hbody']
      exact (hnext a b hab).error hstrict hthen

theorem inField (name : String) (h : Tracks strict stack stack' R body body') :
    Tracks strict stack stack' R (inField name body) (inField name body') where
  ok hrun := by
    obtain ⟨rfl, b, hbody', hab⟩ := h.ok (inField_eq_ok.mp hrun)
    exact ⟨rfl, b, inField_eq_ok.mpr hbody', hab⟩
  error hstrict _ _ hrun := by
    obtain ⟨cause, hbody, rfl⟩ := inField_eq_error.mp hrun
    obtain ⟨rfl, hbody'⟩ := h.error hstrict hbody
    exact ⟨rfl, inField_eq_error.mpr ⟨cause, hbody', rfl⟩⟩

theorem expanding (name : String)
    (h : Tracks strict (name :: stack) (name :: stack') R body body') :
    Tracks strict stack stack' R (expanding name body) (expanding name body') where
  ok hrun := by
    obtain ⟨mid, hbody, rfl⟩ := expanding_eq_ok.mp hrun
    obtain ⟨rfl, b, hbody', hab⟩ := h.ok hbody
    exact ⟨rfl, b, expanding_eq_ok.mpr ⟨_, hbody', rfl⟩, hab⟩
  error hstrict _ _ hrun := by
    obtain ⟨mid, hbody, rfl⟩ := expanding_eq_error.mp hrun
    obtain ⟨rfl, hbody'⟩ := h.error hstrict hbody
    exact ⟨rfl, expanding_eq_error.mpr ⟨_, hbody', rfl⟩⟩

theorem constraints (name : String) (result : Except ConstraintError α) :
    Tracks strict stack stack' (fun a b => result = .ok a ∧ b = a) (constraints name result)
      (constraints name result) where
  ok hrun := by
    obtain ⟨hresult, rfl⟩ := constraints_eq_ok.mp hrun
    exact ⟨rfl, _, constraints_eq_ok.mpr ⟨hresult, rfl⟩, hresult, rfl⟩
  error _ _ _ hrun := by
    obtain ⟨cause, hresult, rfl, rfl⟩ := constraints_eq_error.mp hrun
    exact ⟨rfl, constraints_eq_error.mpr ⟨cause, hresult, rfl, rfl⟩⟩

theorem attempt (h : Restores body) (h' : Restores body') :
    Tracks strict stack stack' (fun _ _ => True) (attempt body) (attempt body') where
  ok hrun := by
    have hfound : ∃ found mid, Builder.attempt body' stack' = .ok found mid := by
      cases hrun' : Builder.attempt body' stack' with
      | ok found mid => exact ⟨found, mid, rfl⟩
      | error e mid => exact (attempt_ne_error hrun').elim
    obtain ⟨found, mid, hrun'⟩ := hfound
    obtain rfl := h'.attempt.ok hrun'
    exact ⟨h.attempt.ok hrun, found, hrun', trivial⟩
  error _ _ _ hrun := (attempt_ne_error hrun).elim

end Tracks

/-! ### The bare form is built alike -/

variable {expand expand' : String → Builder Schema}

theorem layerFields_tracks {decls : List (FieldDecl TypeExpr)}
    (hrestores : ∀ type, Restores (layer expand type))
    (hrestores' : ∀ type, Restores (layer expand' type))
    (hlayer : ∀ d ∈ decls, ¬ d.Dashed →
      Tracks strict stack stack' Schema.SameWire (layer expand d.type) (layer expand' d.type.bare))
    (hnames : (decls.map (·.name)).Nodup) {front front' : FieldList}
    (hfront : Schema.wireFields front = Schema.wireFields front')
    (hfresh : ∀ f ∈ front, f.name ∉ decls.map (·.name))
    (hfresh' : ∀ f ∈ front', f.name ∉ decls.map (·.name)) :
    Tracks strict stack stack' (fun fields fields' =>
        Schema.wireFields fields = Schema.wireFields fields')
      (layerFields expand front decls) (layerFields expand' front' (TypeExpr.bareDecls decls)) := by
  -- By induction on the declarations. The fields in front may differ in those that are skipped and
  -- were kept, but their names are not declared again, so neither run reports a duplicate.
  induction decls generalizing front front' with
  | nil => exact .pure hfront
  | cons d decls ih =>
      rw [List.map_cons, List.nodup_cons] at hnames
      have ih := fun {front front'} =>
        @ih (fun x hx => hlayer x (List.mem_cons_of_mem d hx)) hnames.2 front front'
      have hbehind : ∀ {front new : FieldList}, (∀ f ∈ front, f.name ∉ (d :: decls).map (·.name)) →
          (∀ f ∈ new, f.name = d.name) → ∀ f ∈ front ++ new, f.name ∉ decls.map (·.name) := by
        intro front new hfresh hnew f hf
        rcases List.mem_append.mp hf with hf | hf
        · exact fun hmem => hfresh f hf (List.mem_cons_of_mem d.name hmem)
        · rw [hnew f hf]
          exact hnames.1
      have hnew : ∀ {front : FieldList}, (∀ f ∈ front, f.name ∉ (d :: decls).map (·.name)) →
          ¬ (front.any fun f => f.name = d.name) = true := by
        intro front hfresh hany
        obtain ⟨f, hf, hname⟩ := List.any_eq_true.mp hany
        exact hfresh f hf (by simp [of_decide_eq_true hname])
      rw [TypeExpr.bareDecls, layerFields, layerFields, if_neg (hnew hfresh), if_neg (hnew hfresh')]
      refine .bind (.constraints d.name _) fun tag tag' htag => ?_
      obtain ⟨htag, rfl⟩ := htag
      split
      · refine .bind (.attempt (hrestores _) (hrestores' _)) fun kept kept' _ => ?_
        refine ih ?_ (hbehind hfresh ?_) (hbehind hfresh' ?_)
        · simp [hfront, Schema.wireFields_of_skip]
        · simp
        · simp
      · next hskip =>
        have hdashed : ¬ d.Dashed := fun hdash => hskip ((Tag.skip_iff_dashed htag).mpr hdash)
        rw [if_neg hdashed]
        have htype := (hlayer d List.mem_cons_self hdashed).inField d.name
        refine .bind htype fun schema schema' hschema => ?_
        simp only [hschema.compile_eq]
        refine .bind (.constraints d.name _) fun compiled compiled' hcompiled => ?_
        obtain ⟨-, rfl⟩ := hcompiled
        refine ih ?_ (hbehind hfresh ?_) (hbehind hfresh' ?_)
        · have hwire : schema.wire = schema'.wire := hschema
          simp [hfront, Schema.wireFields, hwire]
        · simp
        · simp

theorem layer_tracks (hrestores : ∀ name, Restores (expand name))
    (hrestores' : ∀ name, Restores (expand' name))
    (hexpand : ∀ name, Tracks strict stack stack' Schema.SameWire (expand name) (expand' name))
    {type : TypeExpr} (hdistinct : type.DistinctFields) :
    Tracks strict stack stack' Schema.SameWire (layer expand type) (layer expand' type.bare) := by
  induction type with
  | named name => exact hexpand name
  | scalar kind => exact .pure rfl
  | pointer elem ih =>
      exact .bind (ih hdistinct) fun _ _ h => .pure (congrArg Schema.optional h)
  | array n elem ih =>
      exact .bind (ih hdistinct) fun _ _ h => .pure (congrArg (Schema.array n · none) h)
  | slice elem ih =>
      rw [TypeExpr.bare, layer, layer, TypeExpr.isByte_bare]
      split
      · exact .pure rfl
      · exact .bind (ih hdistinct) fun _ _ h => .pure (congrArg (Schema.sequence · none) h)
  | map key value ihkey ihvalue =>
      refine .bind (ihkey hdistinct.1) fun k k' hk => ?_
      rw [hk.scalarKind?_inner_eq, hk.text_eq]
      split
      · exact .bind (ihvalue hdistinct.2) fun _ _ h => .pure (congrArg₂ (Schema.map · · none) hk h)
      · exact .throw _
  | struct decls ih =>
      have hlayer : ∀ d ∈ decls, ¬ d.Dashed → Tracks strict stack stack' Schema.SameWire
          (layer expand d.type) (layer expand' d.type.bare) :=
        fun d hd hdashed => ih d hd (TypeExpr.distinctDecls_iff.mp hdistinct.2 d hd hdashed)
      have hfields := layerFields_tracks (layer_restores hrestores) (layer_restores hrestores')
        hlayer hdistinct.1 (Eq.refl (Schema.wireFields [])) (List.forall_mem_nil _)
        (List.forall_mem_nil _)
      exact .bind hfields fun _ _ h => .pure (congrArg (Schema.record none) h)
  | unsupported shape => exact .throw _

variable {reg plain : Registry}

/-- A name is resolved alike if it stands for the bare form of the same type, and the second run has
no other names on its stack. -/
theorem resolve_tracks
    (hplain : ∀ name, plain.resolve? name = (reg.resolve? name).map NamedType.bare)
    (hsub : stack' ⊆ stack) (hstrict : strict → stack ⊆ stack') (name : String) :
    Tracks strict stack stack'
      (fun named named' => reg.resolve? name = some named ∧ plain.resolve? name = some named' ∧
        name ∉ stack ∧ named' = named.bare)
      (resolve reg name) (resolve plain name) where
  ok := by
    intro named mid hrun
    obtain ⟨hnamed, hfresh, rfl⟩ := resolve_eq_ok.mp hrun
    have hnamed' : plain.resolve? name = some named.bare := by
      rw [hplain, hnamed, Option.map_some]
    have hrun' := resolve_eq_ok.mpr ⟨hnamed', fun hmem => hfresh (hsub hmem), rfl⟩
    exact ⟨rfl, named.bare, hrun', hnamed, hnamed', hfresh, rfl⟩
  error hs _ _ hrun := by
    obtain ⟨rfl, ⟨hnone, rfl⟩ | ⟨named, hnamed, hmem, rfl⟩⟩ := resolve_eq_error.mp hrun
    · refine ⟨rfl, resolve_eq_error.mpr ⟨rfl, .inl ⟨?_, rfl⟩⟩⟩
      rw [hplain, hnone, Option.map_none]
    · refine ⟨rfl, resolve_eq_error.mpr ⟨rfl, .inr ⟨named.bare, ?_, hstrict hs hmem, rfl⟩⟩⟩
      rw [hplain, hnamed, Option.map_some]

/-- A name over a registry and over one of the bare forms. The second run may have fewer names on
its stack; it is strict if it has the same ones. -/
theorem expand_tracks
    (hplain : ∀ name, plain.resolve? name = (reg.resolve? name).map NamedType.bare)
    (hdistinct : reg.DistinctFields) {layers layers' : Nat} (hroom' : plain.Room layers' stack')
    (hsub : stack' ⊆ stack) (hstrict : strict → reg.Room layers stack ∧ stack ⊆ stack')
    (name : String) :
    Tracks strict stack stack' Schema.SameWire (Builder.expand reg layers name)
      (Builder.expand plain layers' name) := by
  -- By induction on the layers of the first run. A name is expanded only if it is registered and
  -- not on the stack, so a run that has room for all names has a layer left for it.
  induction layers generalizing layers' stack stack' name with
  | zero =>
      have hresolve := resolve_tracks hplain hsub (fun hs => (hstrict hs).2) name
      have hlax : ∀ {named}, reg.resolve? name = some named → name ∉ stack → ¬ strict :=
        fun hnamed hfresh hs =>
          hfresh ((hstrict hs).1.mem_of_full (Registry.mem_names_of_resolve hnamed))
      cases layers' <;>
        exact .bind hresolve fun named _ hnamed => .throw_of_lax (hlax hnamed.1 hnamed.2.2.1) _ _
  | succ layers ih =>
      have hresolve := resolve_tracks hplain hsub (fun hs => (hstrict hs).2) name
      cases layers' with
      | zero =>
          refine .bind hresolve fun named named' hnamed => ?_
          obtain ⟨-, hnamed', hfresh, rfl⟩ := hnamed
          have hmem := hroom'.mem_of_full (Registry.mem_names_of_resolve hnamed')
          exact (hfresh (hsub hmem)).elim
      | succ layers' =>
          refine .bind hresolve fun named named' hnamed => ?_
          obtain ⟨hnamed, hnamed', hfresh, rfl⟩ := hnamed
          have hregistered := Registry.mem_names_of_resolve hnamed
          have hregistered' := Registry.mem_names_of_resolve hnamed'
          have hinner := ih (hroom'.push hregistered' fun hmem => hfresh (hsub hmem))
            (List.cons_subset_cons name hsub) fun hs =>
              ⟨(hstrict hs).1.push hregistered hfresh, List.cons_subset_cons name (hstrict hs).2⟩
          have hlayer := layer_tracks (expand_restores reg layers)
            (expand_restores plain layers') hinner (hdistinct name named hnamed)
          exact .bind (hlayer.expanding name) fun schema schema' h => .pure (h.withName _)

end Builder

namespace Schema

variable {reg reg' plain : Registry} {type type' : TypeExpr}

theorem ofBuilder_wire_eq {body body' : Builder Schema}
    (h : Builder.Tracks True [] [] SameWire body body') :
    (ofBuilder body).map wire = (ofBuilder body').map wire := by
  cases hbody : body [] with
  | ok schema mid =>
      obtain ⟨-, schema', hbody', hwire⟩ := h.ok hbody
      rw [ofBuilder_eq_ok.mpr ⟨mid, hbody⟩, ofBuilder_eq_ok.mpr ⟨[], hbody'⟩]
      exact congrArg Except.ok hwire
  | error e mid =>
      obtain ⟨-, hbody'⟩ := h.error trivial hbody
      rw [ofBuilder_eq_error.mpr ⟨mid, hbody⟩, ofBuilder_eq_error.mpr ⟨[], hbody'⟩]

theorem expand_tracks_plain
    (hplain : ∀ name, plain.resolve? name = (reg.resolve? name).map NamedType.bare)
    (hreg : reg.DistinctFields) (name : String) :
    Builder.Tracks True [] [] SameWire (Builder.expand reg reg.size name)
      (Builder.expand plain plain.size name) :=
  Builder.expand_tracks hplain hreg (.start plain) (List.Subset.refl [])
    (fun _ => ⟨.start reg, List.Subset.refl []⟩) name

theorem build_wire_eq
    (hplain : ∀ name, plain.resolve? name = (reg.resolve? name).map NamedType.bare)
    (hreg : reg.DistinctFields) (htype : type.DistinctFields) :
    (build reg type).map wire = (build plain type.bare).map wire :=
  ofBuilder_wire_eq <| Builder.layer_tracks (Builder.expand_restores reg reg.size)
    (Builder.expand_restores plain plain.size) (expand_tracks_plain hplain hreg) htype

/-- Skipped fields have no influence on a build. Two expressions, over two registries, that differ
at most in the types of fields with a dash in their tags are built to the same error, or to schemas
that are equal without their skipped fields; and so are registered names. What stands in the place
of the types may contain itself, be unknown or have no wire form. -/
theorem build_ignores_skipped
    (hreg : ∀ name, (reg'.resolve? name).map NamedType.bare =
      (reg.resolve? name).map NamedType.bare)
    (htype : type'.bare = type.bare) (hdistinct : reg.DistinctFields)
    (hfields : type.DistinctFields) :
    (build reg type).map wire = (build reg' type').map wire ∧
    ∀ name, (buildNamed reg name).map wire = (buildNamed reg' name).map wire := by
  have hdistinct' : reg'.DistinctFields := hdistinct.of_bare hreg
  have hplain : ∀ name, reg.bare.resolve? name = (reg.resolve? name).map NamedType.bare :=
    Registry.resolve?_bare
  have hplain' : ∀ name, reg.bare.resolve? name = (reg'.resolve? name).map NamedType.bare :=
    fun name => (hplain name).trans (hreg name).symm
  have hbuild : ∀ {type type' : TypeExpr}, type'.bare = type.bare → type.DistinctFields →
      (build reg type).map wire = (build reg' type').map wire := by
    intro type type' htype hfields
    have hfields' : type'.DistinctFields := by
      rwa [← TypeExpr.distinctFields_bare, htype, TypeExpr.distinctFields_bare]
    rw [build_wire_eq hplain hdistinct hfields, build_wire_eq hplain' hdistinct' hfields', htype]
  -- A name is built like the expression that consists of it.
  exact ⟨hbuild htype hfields, fun name => @hbuild (.named name) (.named name) rfl trivial⟩

/-- A type with a skipped field. -/
def cachedNode (cache : TypeExpr) : Registry :=
  Registry.empty
    |>.define "Node" (.struct [⟨"Id", .scalar (.num .uint8), "min=1"⟩, ⟨"Cache", cache, "-"⟩])

/-- It may contain itself there, or hold something else. -/
theorem build_ignores_skipped_cachedNode :
    (cachedNode (.named "Node")).bare = (cachedNode (.scalar .bool)).bare ∧
    (cachedNode (.named "Node")).DistinctFields ∧
    (buildNamed (cachedNode (.named "Node")) "Node").map wire =
      (buildNamed (cachedNode (.scalar .bool)) "Node").map wire := by
  have hbare : (cachedNode (.named "Node")).bare = (cachedNode (.scalar .bool)).bare := rfl
  have hreg : ∀ name, ((cachedNode (.scalar .bool)).resolve? name).map NamedType.bare =
      ((cachedNode (.named "Node")).resolve? name).map NamedType.bare := by
    intro name
    rw [← Registry.resolve?_bare, ← hbare, Registry.resolve?_bare]
  have hdistinct : (cachedNode (.named "Node")).DistinctFields := by
    refine Registry.distinctFields_of_entries (List.forall_mem_singleton.mpr ?_)
    exact ⟨by decide, fun _ => trivial, fun _ => trivial, trivial⟩
  have hroot : (TypeExpr.named "Node").bare = (TypeExpr.named "Node").bare := rfl
  exact ⟨hbare, hdistinct, (build_ignores_skipped hreg hroot hdistinct trivial).2 "Node"⟩

end Schema

end SchemaWire
