import SchemaWire.Proofs.Schema.Anonymous
import SchemaWire.Proofs.Schema.Skipped

/-!
A name against the type that it stands for.

A type expression is compared with the one that has the type itself in place of the name. A name
that no registered expression uses has no influence on the expansion of other names, whether it is
on the stack or not, so expanding it differs from building its type in the label only. The two
expressions are then built side by side: both builds succeed, with schemas that differ in display
names, or both fail. There is one exception. A slice of the byte type is a byte string, but a slice
of a name for it is a sequence of bytes.
-/

namespace SchemaWire

/-! ### A type in place of a name -/

namespace TypeExpr

mutual

def inline (context : TypeExpr) (name : String) (type : TypeExpr) : TypeExpr :=
  match context with
  | .named other => if other = name then type else .named other
  | .scalar kind => .scalar kind
  | .pointer elem => .pointer (elem.inline name type)
  | .array n elem => .array n (elem.inline name type)
  | .slice elem => .slice (elem.inline name type)
  | .map key value => .map (key.inline name type) (value.inline name type)
  | .struct decls => .struct (inlineDecls decls name type)
  | .unsupported shape => .unsupported shape

def inlineDecls (decls : List (FieldDecl TypeExpr)) (name : String) (type : TypeExpr) :
    List (FieldDecl TypeExpr) :=
  match decls with
  | [] => []
  | ⟨field, elem, tag⟩ :: decls =>
    ⟨field, elem.inline name type, tag⟩ :: inlineDecls decls name type

end

mutual

def names : TypeExpr → List String
  | .named name => [name]
  | .scalar _ | .unsupported _ => []
  | .pointer elem | .array _ elem | .slice elem => names elem
  | .map key value => names key ++ names value
  | .struct decls => declNames decls

def declNames : List (FieldDecl TypeExpr) → List String
  | [] => []
  | ⟨_, type, _⟩ :: decls => names type ++ declNames decls

end

/-- Somewhere in the expression stands a slice of the bare name. -/
inductive Slices (name : String) : TypeExpr → Prop where
  | here : Slices name (.slice (.named name))
  | pointer {elem : TypeExpr} : Slices name elem → Slices name (.pointer elem)
  | array {n : Nat} {elem : TypeExpr} : Slices name elem → Slices name (.array n elem)
  | slice {elem : TypeExpr} : Slices name elem → Slices name (.slice elem)
  | key {key value : TypeExpr} : Slices name key → Slices name (.map key value)
  | value {key value : TypeExpr} : Slices name value → Slices name (.map key value)
  | field {decls : List (FieldDecl TypeExpr)} {d : FieldDecl TypeExpr} :
      d ∈ decls → Slices name d.type → Slices name (.struct decls)

theorem mem_declNames {name : String} {decls : List (FieldDecl TypeExpr)} :
    name ∈ declNames decls ↔ ∃ d ∈ decls, name ∈ d.type.names := by
  induction decls with
  | nil => simp [declNames]
  | cons d decls ih => simp [declNames, ih]

theorem eq_uint8_of_isByte {type : TypeExpr} (h : type.isByte = true) :
    type = .scalar (.num .uint8) := by
  unfold isByte at h
  split at h
  · rfl
  · cases h

theorem isByte_inline {name : String} {type elem : TypeExpr}
    (h : ¬ (elem = .named name ∧ type.isByte = true)) :
    (elem.inline name type).isByte = elem.isByte := by
  cases elem with
  | named other =>
      rw [inline]
      split
      · next heq =>
        subst heq
        exact Bool.eq_false_iff.mpr fun hbyte => h ⟨rfl, hbyte⟩
      · rfl
  | _ => rfl

end TypeExpr

def Registry.Unused (reg : Registry) (name : String) : Prop :=
  ∀ entry ∈ reg.entries, name ∉ entry.2.underlying.names

namespace Builder

open Stateful

variable {stack stack' : List String}

/-! ### A name that is not used -/

section Unused

variable {expand expand' : String → Builder Schema} {reg : Registry} {name : String}

theorem Tracks.attempt_eq {α : Type} {body body' : Builder α}
    (h : Tracks True stack stack' Eq body body') :
    Tracks True stack stack' Eq (Builder.attempt body)
      (Builder.attempt body') where
  ok {found mid} hrun := by
    unfold Builder.attempt at hrun ⊢
    cases hbody : body stack with
    | ok a s =>
        obtain ⟨rfl, b, hbody', rfl⟩ := h.ok hbody
        rw [hbody] at hrun
        cases hrun
        rw [hbody']
        exact ⟨rfl, some a, rfl, rfl⟩
    | error e s =>
        obtain ⟨rfl, hbody'⟩ := h.error trivial hbody
        rw [hbody] at hrun
        cases hrun
        rw [hbody']
        exact ⟨rfl, none, rfl, rfl⟩
  error _ _ _ hrun := (attempt_ne_error hrun).elim

theorem layerFields_tracks_eq {decls : List (FieldDecl TypeExpr)}
    (hlayer : ∀ d ∈ decls, Tracks True stack stack' Eq (layer expand d.type) (layer expand' d.type))
    (front : FieldList) :
    Tracks True stack stack' Eq (layerFields expand front decls)
      (layerFields expand' front decls) := by
  induction decls generalizing front with
  | nil => exact .pure rfl
  | cons d decls ih =>
      have ih := ih fun x hx => hlayer x (List.mem_cons_of_mem d hx)
      have htype := hlayer d List.mem_cons_self
      rw [layerFields, layerFields]
      split
      · exact .throw _
      · refine .bind (.constraints d.name _) fun tag _ htag => ?_
        obtain ⟨-, rfl⟩ := htag
        split
        · refine .bind htype.attempt_eq fun kept _ hkept => ?_
          subst hkept
          exact ih _
        · refine .bind (htype.inField d.name) fun schema _ hschema => ?_
          subst hschema
          refine .bind (.constraints d.name _) fun compiled _ hcompiled => ?_
          obtain ⟨-, rfl⟩ := hcompiled
          exact ih _

theorem layer_tracks_eq {type : TypeExpr}
    (hexpand : ∀ other ∈ type.names,
      Tracks True stack stack' Eq (expand other) (expand' other)) :
    Tracks True stack stack' Eq (layer expand type) (layer expand' type) := by
  induction type with
  | named other => exact hexpand other List.mem_cons_self
  | scalar kind => exact .pure rfl
  | pointer elem ih => exact .bind (ih hexpand) fun _ _ h => .pure (congrArg Schema.optional h)
  | array n elem ih =>
      exact .bind (ih hexpand) fun _ _ h => .pure (congrArg (Schema.array n · none) h)
  | slice elem ih =>
      rw [layer, layer]
      split
      · exact .pure rfl
      · exact .bind (ih hexpand) fun _ _ h => .pure (congrArg (Schema.sequence · none) h)
  | map key value ihkey ihvalue =>
      have hkey := ihkey fun other hother => hexpand other (List.mem_append_left _ hother)
      have hvalue := ihvalue fun other hother => hexpand other (List.mem_append_right _ hother)
      refine .bind hkey fun k _ hk => ?_
      subst hk
      split
      · exact .bind hvalue fun _ _ h => .pure (congrArg (Schema.map k · none) h)
      · exact .throw _
  | struct decls ih =>
      have hfields := layerFields_tracks_eq (fun d hd => ih d hd fun other hother =>
        hexpand other (TypeExpr.mem_declNames.mpr ⟨d, hd, hother⟩)) []
      exact .bind hfields fun _ _ h => .pure (congrArg (Schema.record none) h)
  | unsupported shape => exact .throw _

theorem resolve_tracks_eq (reg : Registry) {other : String}
    (hstacks : other ∈ stack ↔ other ∈ stack') :
    Tracks True stack stack'
      (fun named named' => reg.resolve? other = some named ∧ other ∉ stack ∧ named' = named)
      (resolve reg other) (resolve reg other) where
  ok {named mid} hrun := by
    obtain ⟨hnamed, hfresh, rfl⟩ := resolve_eq_ok.mp hrun
    have hrun' := resolve_eq_ok.mpr ⟨hnamed, fun hmem => hfresh (hstacks.mpr hmem), rfl⟩
    exact ⟨rfl, named, hrun', hnamed, hfresh, rfl⟩
  error _ e mid hrun := by
    obtain ⟨rfl, ⟨hnone, rfl⟩ | ⟨named, hnamed, hmem, rfl⟩⟩ := resolve_eq_error.mp hrun
    · exact ⟨rfl, resolve_eq_error.mpr ⟨rfl, .inl ⟨hnone, rfl⟩⟩⟩
    · exact ⟨rfl, resolve_eq_error.mpr ⟨rfl, .inr ⟨named, hnamed, hstacks.mp hmem, rfl⟩⟩⟩

/-- Other names are expanded the same, whether an unused name is on the stack or not. -/
theorem expand_tracks_eq (hunused : reg.Unused name) {layers layers' : Nat}
    (hroom : reg.Room layers stack) (hroom' : reg.Room layers' stack')
    (hstacks : ∀ other ≠ name, other ∈ stack ↔ other ∈ stack') {other : String}
    (hother : other ≠ name) :
    Tracks True stack stack' Eq (Builder.expand reg layers other)
      (Builder.expand reg layers' other) := by
  -- By induction on the layers of the first run; a run with room for all names has a layer left for
  -- a name that is not on its stack.
  induction layers generalizing layers' stack stack' other with
  | zero =>
      have hresolve := resolve_tracks_eq reg (hstacks other hother)
      cases layers' <;>
        refine .bind hresolve fun named named' hnamed => ?_ <;>
        exact (hnamed.2.1 (hroom.mem_of_full (Registry.mem_names_of_resolve hnamed.1))).elim
  | succ layers ih =>
      have hresolve := resolve_tracks_eq reg (hstacks other hother)
      cases layers' with
      | zero =>
          refine .bind hresolve fun named named' hnamed => ?_
          have hmem := hroom'.mem_of_full (Registry.mem_names_of_resolve hnamed.1)
          exact (hnamed.2.1 ((hstacks other hother).mpr hmem)).elim
      | succ layers' =>
          refine .bind hresolve fun named named' hnamed => ?_
          obtain ⟨hnamed, hfresh, rfl⟩ := hnamed
          have hregistered := Registry.mem_names_of_resolve hnamed
          have hfresh' : other ∉ stack' := fun hmem => hfresh ((hstacks other hother).mpr hmem)
          have hpushed : ∀ x ≠ name, x ∈ other :: stack ↔ x ∈ other :: stack' := by
            intro x hx
            rw [List.mem_cons, List.mem_cons, hstacks x hx]
          have hnames : name ∉ named'.underlying.names :=
            hunused (other, named') (Registry.mem_of_lookup hnamed)
          have hlayer := layer_tracks_eq fun x hx =>
            ih (hroom.push hregistered hfresh) (hroom'.push hregistered hfresh') hpushed
              fun heq => hnames (heq ▸ hx)
          exact .bind (hlayer.expanding other) fun schema _ h => .pure (congrArg _ h)

end Unused

/-! ### Building side by side -/

/-- On this stack both builders succeed, with results related by `R`, or both fail. Either way they
leave the stack as it was. -/
inductive Alike {α β : Type} (stack : List String) (R : α → β → Prop) (body : Builder α)
    (body' : Builder β) : Prop where
  | ok {a : α} {b : β} :
      body stack = .ok a stack → body' stack = .ok b stack → R a b → Alike stack R body body'
  | error {e e' : SchemaError} :
      body stack = .error e stack → body' stack = .error e' stack → Alike stack R body body'

namespace Alike

variable {α β γ δ : Type} {R : α → β → Prop} {S : γ → δ → Prop} {body : Builder α}
  {body' : Builder β}

protected theorem pure {a : α} {b : β} (h : R a b) : Alike stack R (pure a) (pure b) :=
  .ok rfl rfl h

protected theorem throw (e e' : SchemaError) :
    Alike stack R (throw e : Builder α) (throw e' : Builder β) :=
  .error rfl rfl

theorem refl {R : α → α → Prop} {body : Builder α} (h : Restores body) (hR : ∀ a, R a a) :
    Alike stack R body body := by
  cases hbody : body stack with
  | ok a mid =>
      obtain rfl := h.ok hbody
      exact .ok hbody hbody (hR a)
  | error e mid =>
      obtain rfl := h.error hbody
      exact .error hbody hbody

protected theorem bind {next : α → Builder γ} {next' : β → Builder δ}
    (h : Alike stack R body body') (hnext : ∀ a b, R a b → Alike stack S (next a) (next' b)) :
    Alike stack S (body >>= next) (body' >>= next') := by
  rcases h with ⟨ha, hb, hab⟩ | ⟨he, he'⟩
  · rcases hnext _ _ hab with ⟨hc, hd, hcd⟩ | ⟨he, he'⟩
    · exact .ok ((bind_of_ok ha).trans hc) ((bind_of_ok hb).trans hd) hcd
    · exact .error ((bind_of_ok ha).trans he) ((bind_of_ok hb).trans he')
  · exact .error (bind_of_error he) (bind_of_error he')

theorem inField (name : String) (h : Alike stack R body body') :
    Alike stack R (inField name body) (inField name body') := by
  rcases h with ⟨ha, hb, hab⟩ | ⟨he, he'⟩
  · exact .ok (inField_eq_ok.mpr ha) (inField_eq_ok.mpr hb) hab
  · exact .error (inField_eq_error.mpr ⟨_, he, rfl⟩) (inField_eq_error.mpr ⟨_, he', rfl⟩)

theorem attempt (h : Alike stack R body body') :
    Alike stack (Option.Rel R) (attempt body) (attempt body') := by
  unfold Builder.attempt
  rcases h with ⟨ha, hb, hab⟩ | ⟨he, he'⟩
  · exact .ok (by rw [ha]) (by rw [hb]) (.some hab)
  · exact .ok (by rw [he]) (by rw [he']) .none

theorem constraints (name : String) {result result' : Except ConstraintError α}
    (h : ∀ {a}, result = .ok a → result' = .ok a) (h' : ∀ {a}, result' = .ok a → result = .ok a) :
    Alike stack Eq (constraints name result) (constraints name result') := by
  cases result with
  | ok a =>
      rw [h rfl]
      exact .pure rfl
  | error e =>
      cases result' with
      | ok a => cases h' rfl
      | error e' => exact .throw _ _

end Alike

/-! ### An expression and its inlined form -/

section Inlined

variable {spelled : Bool} {expand : String → Builder Schema} {name : String} {type : TypeExpr}

theorem layerFields_alike {decls : List (FieldDecl TypeExpr)}
    (hlayer : ∀ d ∈ decls, Alike stack (Schema.SameShape spelled) (layer expand d.type)
      (layer expand (d.type.inline name type)))
    {front front' : FieldList}
    (hfront : Schema.anonymousFields spelled front = Schema.anonymousFields spelled front') :
    Alike stack (fun fields fields' =>
        Schema.anonymousFields spelled fields = Schema.anonymousFields spelled fields')
      (layerFields expand front decls)
      (layerFields expand front' (TypeExpr.inlineDecls decls name type)) := by
  -- By induction on the declarations; the fields in front have the same names in both runs.
  induction decls generalizing front front' with
  | nil => exact .pure hfront
  | cons d decls ih =>
      have ih := fun {front front'} =>
        @ih (fun x hx => hlayer x (List.mem_cons_of_mem d hx)) front front'
      have htype := hlayer d List.mem_cons_self
      have hnew : (front.any fun f => f.name = d.name) = front'.any fun f => f.name = d.name := by
        rw [← @Schema.any_anonymousFields spelled, hfront, Schema.any_anonymousFields]
      have hgrow : ∀ {schema schema' : Schema} (skip : Bool) (compiled : List Constraint),
          schema.SameShape spelled schema' →
          Schema.anonymousFields spelled (front ++ [⟨d.name, schema, skip, compiled⟩]) =
            Schema.anonymousFields spelled (front' ++ [⟨d.name, schema', skip, compiled⟩]) := by
        intro schema schema' skip compiled hschema
        have hanonymous : schema.anonymous spelled = schema'.anonymous spelled := hschema
        simp only [Schema.anonymousFields_append, hfront, Schema.anonymousFields, hanonymous]
      rw [TypeExpr.inlineDecls, layerFields, layerFields, hnew]
      split
      · exact .throw _ _
      · refine .bind (.constraints d.name id id) fun tag _ htag => ?_
        subst htag
        split
        · refine .bind htype.attempt fun kept kept' hkept => ih ?_
          cases hkept with
          | none => simpa using hfront
          | some hschema => exact hgrow true [] hschema
        · refine .bind (htype.inField d.name) fun schema schema' hschema => ?_
          refine .bind (.constraints d.name (fun h => mapM_eq_ok_mono h ?_)
            fun h => mapM_eq_ok_mono h ?_) fun compiled _ hcompiled => ?_
          · exact Constraint.compile_of_sameShape hschema
          · exact Constraint.compile_of_sameShape hschema.symm
          · subst hcompiled
            exact ih (hgrow false compiled hschema)

/-- One layer over an expression and over its inlined form. Byte strings have to be spelled where
a byte type is inlined into a slice. -/
theorem layer_alike (hrestores : ∀ other, Restores (expand other))
    (hname : Alike stack (Schema.SameShape spelled) (expand name) (layer expand type))
    {context : TypeExpr}
    (hslices : spelled = false → type.isByte = true → ¬ context.Slices name) :
    Alike stack (Schema.SameShape spelled) (layer expand context)
      (layer expand (context.inline name type)) := by
  induction context with
  | named other =>
      rw [TypeExpr.inline]
      split
      · next heq =>
        subst heq
        exact hname
      · exact .refl (hrestores other) fun _ => rfl
  | scalar kind => exact .pure rfl
  | pointer elem ih =>
      have helem := ih fun hs hbyte h => hslices hs hbyte (.pointer h)
      exact .bind helem fun _ _ h => .pure (congrArg Schema.optional h)
  | array n elem ih =>
      have helem := ih fun hs hbyte h => hslices hs hbyte (.array h)
      exact .bind helem fun _ _ h => .pure (congrArg (Schema.array n · none) h)
  | slice elem ih =>
      have helem := ih fun hs hbyte h => hslices hs hbyte (.slice h)
      rw [TypeExpr.inline, layer, layer]
      by_cases hbyte : elem = .named name ∧ type.isByte = true
      · -- The name makes a sequence and its type a byte string.
        obtain ⟨rfl, hbyte⟩ := hbyte
        cases spelled with
        | false => exact (hslices rfl hbyte .here).elim
        | true =>
            obtain rfl := TypeExpr.eq_uint8_of_isByte hbyte
            have hsequence : ¬ (TypeExpr.named name).isByte = true := Bool.false_ne_true
            rw [TypeExpr.inline, if_pos rfl, if_neg hsequence, if_pos hbyte]
            rcases hname with ⟨hok, hbyte, hshape⟩ | ⟨-, he⟩
            · obtain ⟨rfl, -⟩ := pure_eq_ok.mp hbyte
              exact .ok (bind_of_ok hok) rfl (congrArg (Schema.sequence · none) hshape)
            · exact (pure_ne_error he).elim
      · rw [TypeExpr.isByte_inline hbyte]
        split
        · exact .pure rfl
        · exact .bind helem fun _ _ h => .pure (congrArg (Schema.sequence · none) h)
  | map key value ihkey ihvalue =>
      have hkey := ihkey fun hs hbyte h => hslices hs hbyte (.key h)
      have hvalue := ihvalue fun hs hbyte h => hslices hs hbyte (.value h)
      refine .bind hkey fun k k' hk => ?_
      rw [hk.scalarKind?_inner_eq]
      split
      · exact .bind hvalue fun _ _ h => .pure (congrArg₂ (Schema.map · · none) hk h)
      · exact .throw _ _
  | struct decls ih =>
      have hfields := layerFields_alike
        (fun d hd => ih d hd fun hs hbyte h => hslices hs hbyte (.field hd h))
        (Eq.refl (Schema.anonymousFields spelled []))
      exact .bind hfields fun _ _ h => .pure (congrArg (Schema.record none) h)
  | unsupported shape => exact .throw _ _

theorem expand_alike {reg : Registry} {named : NamedType} (hnamed : reg.resolve? name = some named)
    (hunused : reg.Unused name) :
    Alike [] (Schema.SameShape spelled) (Builder.expand reg reg.size name)
      (layer (Builder.expand reg reg.size) named.underlying) := by
  have hregistered := Registry.mem_names_of_resolve hnamed
  obtain ⟨layers, hsize⟩ : ∃ layers, reg.size = layers + 1 := by
    have hpos : 0 < reg.names.length := List.length_pos_of_mem hregistered
    rw [Registry.names, List.length_map] at hpos
    exact ⟨reg.size - 1, (Nat.sub_add_cancel hpos).symm⟩
  have hroom := Registry.Room.start reg
  rw [hsize] at hroom
  have hnames : name ∉ named.underlying.names :=
    hunused (name, named) (Registry.mem_of_lookup hnamed)
  -- Its type is built with the name on the stack in one run, and without it in the other.
  have hstacks : ∀ other ≠ name, other ∈ [name] ↔ other ∈ ([] : List String) := by
    intro other hother
    simp [hother]
  have hlayer := layer_tracks_eq fun other hother =>
    expand_tracks_eq hunused (hroom.push hregistered List.not_mem_nil) hroom hstacks
      fun heq => hnames (heq ▸ hother)
  have hresolve : resolve reg name [] = .ok named [] :=
    resolve_eq_ok.mpr ⟨hnamed, List.not_mem_nil, rfl⟩
  rw [hsize, Builder.expand]
  cases hbody : layer (Builder.expand reg layers) named.underlying [name] with
  | ok schema mid =>
      obtain ⟨rfl, _, hbody', rfl⟩ := hlayer.ok hbody
      have hexpanding := expanding_eq_ok.mpr ⟨_, hbody, rfl⟩
      exact .ok ((bind_of_ok hresolve).trans (bind_of_ok hexpanding)) hbody'
        (Schema.anonymous_withName schema named.display)
  | error e mid =>
      obtain ⟨rfl, hbody'⟩ := hlayer.error trivial hbody
      have hexpanding := expanding_eq_error.mpr ⟨_, hbody, rfl⟩
      exact .error ((bind_of_ok hresolve).trans (bind_of_error hexpanding)) hbody'

end Inlined

end Builder

namespace Schema

theorem build_alike {reg : Registry} {name : String} {named : NamedType} {context : TypeExpr}
    (hnamed : reg.resolve? name = some named) (hunused : reg.Unused name) {spelled : Bool}
    (hslices : spelled = false → named.underlying.isByte = true → ¬ context.Slices name) :
    (∃ schema schema', build reg context = .ok schema ∧
      build reg (context.inline name named.underlying) = .ok schema' ∧
      schema.SameShape spelled schema') ∨
    ∃ e e', build reg context = .error e ∧
      build reg (context.inline name named.underlying) = .error e' := by
  rcases Builder.layer_alike (Builder.expand_restores reg reg.size)
    (Builder.expand_alike hnamed hunused) hslices with ⟨hok, hok', hshape⟩ | ⟨he, he'⟩
  · exact .inl ⟨_, _, ofBuilder_eq_ok.mpr ⟨_, hok⟩, ofBuilder_eq_ok.mpr ⟨_, hok'⟩, hshape⟩
  · exact .inr ⟨_, _, ofBuilder_eq_error.mpr ⟨_, he⟩, ofBuilder_eq_error.mpr ⟨_, he'⟩⟩

end Schema

end SchemaWire
