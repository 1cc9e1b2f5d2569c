import SchemaWire.Proofs.Schema.Built

/-!
How the names in a type expression are expanded.

Every builder leaves the stack as it found it, also when it fails, so one expression expands all its
names over the same stack. It mentions the names that stand outside its skipped fields. If the
expression has a schema, then so has every name that it mentions; and if it fails because some type
contains itself, then a name that it mentions failed so.
-/

namespace SchemaWire

def FieldDecl.Dashed {τ : Type} (d : FieldDecl τ) : Prop := ['-'] ∈ Tag.entries d.tag.toList

instance {τ : Type} (d : FieldDecl τ) : Decidable d.Dashed :=
  inferInstanceAs (Decidable (['-'] ∈ Tag.entries d.tag.toList))

/-- The name stands somewhere in the type expression, at a position that is not inside a field with
a dash in its tag. -/
inductive TypeExpr.Mentions (name : String) : TypeExpr → Prop where
  | named : Mentions name (.named name)
  | pointer {elem : TypeExpr} : Mentions name elem → Mentions name (.pointer elem)
  | array {length : Nat} {elem : TypeExpr} : Mentions name elem → Mentions name (.array length elem)
  | slice {elem : TypeExpr} : Mentions name elem → Mentions name (.slice elem)
  | key {key value : TypeExpr} : Mentions name key → Mentions name (.map key value)
  | value {key value : TypeExpr} : Mentions name value → Mentions name (.map key value)
  | field {fields : List (FieldDecl TypeExpr)} {d : FieldDecl TypeExpr} :
      d ∈ fields → ¬ d.Dashed → Mentions name d.type → Mentions name (.struct fields)

namespace Tag

open Stateful

theorem ofEntries_skip {entries : List (List Char)} {tag : Tag}
    (h : ofEntries entries = .ok tag) : tag.skip = true ↔ ['-'] ∈ entries := by
  induction entries generalizing tag with
  | nil =>
      cases h
      simp [empty]
  | cons entry rest ih =>
      rw [ofEntries] at h
      split at h
      · next hdash =>
        obtain ⟨tag', -, h⟩ := except_bind_eq_ok.mp h
        cases h
        simp [hdash]
      · next hdash =>
        obtain ⟨declaration, -, h⟩ := except_bind_eq_ok.mp h
        obtain ⟨tag', htag', h⟩ := except_bind_eq_ok.mp h
        cases h
        have hne : ['-'] ≠ entry := fun heq => hdash heq.symm
        rw [ih htag', List.mem_cons]
        simp [hne]

theorem skip_iff_dashed {τ : Type} {d : FieldDecl τ} {tag : Tag} (h : parse d.tag = .ok tag) :
    tag.skip = true ↔ d.Dashed :=
  ofEntries_skip h

end Tag

namespace Builder

open Stateful

variable {α β : Type} {stack stack' : List String}

/-! ### Where a failure comes from -/

theorem expanding_eq_error {name : String} {body : Builder α} {e : SchemaError} :
    expanding name body stack = .error e stack' ↔
      ∃ mid, body (name :: stack) = .error e mid ∧ stack' = mid.tail := by
  unfold expanding
  cases body (name :: stack) with
  | ok a mid => simp
  | error e' mid =>
      simp only [EStateM.Result.error.injEq]
      constructor
      · rintro ⟨rfl, rfl⟩
        exact ⟨mid, ⟨rfl, rfl⟩, rfl⟩
      · rintro ⟨_, ⟨rfl, rfl⟩, rfl⟩
        exact ⟨rfl, rfl⟩

theorem inField_eq_error {name : String} {body : Builder α} {e : SchemaError} :
    inField name body stack = .error e stack' ↔
      ∃ cause, body stack = .error cause stack' ∧ e = .field name cause := by
  unfold inField
  cases body stack with
  | ok a mid => simp
  | error cause mid =>
      simp only [EStateM.Result.error.injEq]
      constructor
      · rintro ⟨rfl, rfl⟩
        exact ⟨cause, ⟨rfl, rfl⟩, rfl⟩
      · rintro ⟨_, ⟨rfl, rfl⟩, rfl⟩
        exact ⟨rfl, rfl⟩

theorem constraints_eq_error {name : String} {result : Except ConstraintError α} {e : SchemaError} :
    constraints name result stack = .error e stack' ↔
      ∃ cause, result = .error cause ∧ e = .constraint name cause ∧ stack' = stack := by
  cases result with
  | ok a => simp [constraints, pure_ne_error]
  | error cause => simp [constraints, throw_eq_error]

/-- Where the attempt ends, the body has ended, whatever came of it. -/
theorem attempt_eq_ok_cases {body : Builder α} {found : Option α}
    (h : attempt body stack = .ok found stack') :
    (∃ a, body stack = .ok a stack') ∨ ∃ e, body stack = .error e stack' := by
  unfold attempt at h
  cases hbody : body stack <;> rw [hbody] at h <;> cases h
  · exact .inl ⟨_, rfl⟩
  · exact .inr ⟨_, rfl⟩

theorem attempt_ne_error {body : Builder α} {e : SchemaError} :
    attempt body stack ≠ .error e stack' := by
  unfold attempt
  cases body stack <;> nofun

theorem resolve_eq_ok {reg : Registry} {name : String} {named : NamedType} :
    resolve reg name stack = .ok named stack' ↔
      reg.resolve? name = some named ∧ name ∉ stack ∧ stack' = stack := by
  unfold resolve
  cases reg.resolve? name with
  | none => simp
  | some found =>
      by_cases hmem : name ∈ stack
      · simp [hmem]
      · simp [hmem, eq_comm]

theorem resolve_eq_error {reg : Registry} {name : String} {e : SchemaError} :
    resolve reg name stack = .error e stack' ↔ stack' = stack ∧
      ((reg.resolve? name = none ∧ e = .unknown name) ∨
        ∃ named, reg.resolve? name = some named ∧ name ∈ stack ∧ e = .cyclic named.display) := by
  unfold resolve
  cases reg.resolve? name with
  | none => simp [eq_comm, and_comm]
  | some found =>
      by_cases hmem : name ∈ stack
      · simp [hmem, eq_comm, and_comm]
      · simp [hmem]

/-! ### The stack is put back -/

/-- Whether it succeeds or fails, the builder leaves the stack as it found it. -/
structure Restores (body : Builder α) : Prop where
  ok : ∀ {stack a stack'}, body stack = .ok a stack' → stack' = stack
  error : ∀ {stack e stack'}, body stack = .error e stack' → stack' = stack

namespace Restores

variable {body : Builder α}

protected theorem pure (a : α) : Restores (pure a : Builder α) where
  ok h := (pure_eq_ok.mp h).2
  error h := (pure_ne_error h).elim

protected theorem throw (e : SchemaError) : Restores (throw e : Builder α) where
  ok h := (throw_ne_ok h).elim
  error h := (throw_eq_error.mp h).2

protected theorem bind {next : α → Builder β} (h : Restores body)
    (hnext : ∀ a, Restores (next a)) : Restores (body >>= next) where
  ok hrun := by
    obtain ⟨a, mid, hbody, hrun⟩ := bind_eq_ok.mp hrun
    exact ((hnext a).ok hrun).trans (h.ok hbody)
  error hrun := by
    rcases bind_eq_error.mp hrun with hbody | ⟨a, mid, hbody, hrun⟩
    · exact h.error hbody
    · exact ((hnext a).error hrun).trans (h.ok hbody)

theorem expanding (name : String) (h : Restores body) : Restores (expanding name body) where
  ok hrun := by
    obtain ⟨mid, hbody, rfl⟩ := expanding_eq_ok.mp hrun
    rw [h.ok hbody, List.tail_cons]
  error hrun := by
    obtain ⟨mid, hbody, rfl⟩ := expanding_eq_error.mp hrun
    rw [h.error hbody, List.tail_cons]

theorem inField (name : String) (h : Restores body) : Restores (inField name body) where
  ok hrun := h.ok (inField_eq_ok.mp hrun)
  error hrun := by
    obtain ⟨cause, hbody, -⟩ := inField_eq_error.mp hrun
    exact h.error hbody

theorem attempt (h : Restores body) : Restores (attempt body) where
  ok hrun := by
    rcases attempt_eq_ok_cases hrun with ⟨a, hbody⟩ | ⟨e, hbody⟩
    · exact h.ok hbody
    · exact h.error hbody
  error hrun := (attempt_ne_error hrun).elim

theorem constraints (name : String) (result : Except ConstraintError α) :
    Restores (constraints name result) where
  ok hrun := (constraints_eq_ok.mp hrun).2
  error hrun := by
    obtain ⟨cause, -, -, hstack⟩ := constraints_eq_error.mp hrun
    exact hstack

theorem bind_ok {next : α → Builder β} {b : β} (h : Restores body)
    (hrun : (body >>= next) stack = .ok b stack') :
    ∃ a, body stack = .ok a stack ∧ next a stack = .ok b stack' := by
  obtain ⟨a, mid, hbody, hnext⟩ := bind_eq_ok.mp hrun
  obtain rfl := h.ok hbody
  exact ⟨a, hbody, hnext⟩

theorem bind_error {next : α → Builder β} {e : SchemaError} (h : Restores body)
    (hrun : (body >>= next) stack = .error e stack') :
    body stack = .error e stack ∨
      ∃ a, body stack = .ok a stack ∧ next a stack = .error e stack' := by
  rcases bind_eq_error.mp hrun with hbody | ⟨a, mid, hbody, hnext⟩
  · obtain rfl := h.error hbody
    exact .inl hbody
  · obtain rfl := h.ok hbody
    exact .inr ⟨a, hbody, hnext⟩

end Restores

variable {expand : String → Builder Schema}

theorem layerFields_restores {decls : List (FieldDecl TypeExpr)}
    (hlayer : ∀ d ∈ decls, Restores (layer expand d.type)) (front : FieldList) :
    Restores (layerFields expand front decls) := by
  induction decls generalizing front with
  | nil => exact .pure front
  | cons d decls ih =>
      have ih := fun front => ih (fun x hx => hlayer x (List.mem_cons_of_mem d hx)) front
      have htype := hlayer d List.mem_cons_self
      rw [layerFields]
      split
      · exact .throw _
      · refine .bind (.constraints d.name _) fun tag => ?_
        split
        · exact .bind htype.attempt fun kept => ih _
        · refine .bind (htype.inField d.name) fun schema => ?_
          exact .bind (.constraints d.name _) fun compiled => ih _

theorem layer_restores (hexpand : ∀ name, Restores (expand name)) (type : TypeExpr) :
    Restores (layer expand type) := by
  induction type with
  | named name => exact hexpand name
  | scalar kind => exact .pure _
  | pointer elem ih => exact .bind ih fun _ => .pure _
  | array n elem ih => exact .bind ih fun _ => .pure _
  | slice elem ih =>
      rw [layer]
      split
      · exact .pure _
      · exact .bind ih fun _ => .pure _
  | map key value ihkey ihvalue =>
      refine .bind ihkey fun k => ?_
      split
      · exact .bind ihvalue fun _ => .pure _
      · exact .throw _
  | struct decls ih => exact .bind (layerFields_restores ih []) fun _ => .pure _
  | unsupported shape => exact .throw _

theorem resolve_restores (reg : Registry) (name : String) : Restores (resolve reg name) where
  ok h := (resolve_eq_ok.mp h).2.2
  error h := (resolve_eq_error.mp h).1

theorem expand_restores (reg : Registry) (layers : Nat) (name : String) :
    Restores (Builder.expand reg layers name) := by
  induction layers generalizing name with
  | zero => exact .bind (resolve_restores reg name) fun _ => .throw _
  | succ layers ih =>
      refine .bind (resolve_restores reg name) fun named => ?_
      exact .bind ((layer_restores ih named.underlying).expanding name) fun _ => .pure _

/-! ### The names that an expression mentions -/

theorem layerFields_ok_field (hexpand : ∀ name, Restores (expand name))
    {decls : List (FieldDecl TypeExpr)} {front fields : FieldList}
    (h : layerFields expand front decls stack = .ok fields stack') {d : FieldDecl TypeExpr}
    (hd : d ∈ decls) (hdashed : ¬ d.Dashed) :
    ∃ schema, layer expand d.type stack = .ok schema stack := by
  induction decls generalizing front with
  | nil => cases hd
  | cons x decls ih =>
      have hx := layer_restores hexpand x.type
      rw [layerFields] at h
      split at h
      · exact (throw_ne_ok h).elim
      · obtain ⟨tag, htag, h⟩ := (Restores.constraints x.name _).bind_ok h
        have htag := (constraints_eq_ok.mp htag).1
        split at h
        · next hskip =>
          obtain ⟨kept, -, h⟩ := hx.attempt.bind_ok h
          rcases List.mem_cons.mp hd with rfl | hd
          · exact (hdashed ((Tag.skip_iff_dashed htag).mp hskip)).elim
          · exact ih h hd
        · obtain ⟨schema, hschema, h⟩ := (hx.inField x.name).bind_ok h
          obtain ⟨compiled, -, h⟩ := (Restores.constraints x.name _).bind_ok h
          rcases List.mem_cons.mp hd with rfl | hd
          · exact ⟨schema, inField_eq_ok.mp hschema⟩
          · exact ih h hd

theorem expand_ok_of_mentions (hexpand : ∀ name, Restores (expand name)) {type : TypeExpr}
    {schema : Schema} (h : layer expand type stack = .ok schema stack') {name : String}
    (hname : type.Mentions name) : ∃ schema, expand name stack = .ok schema stack := by
  induction hname generalizing stack' schema with
  | named =>
      obtain rfl := (hexpand name).ok h
      exact ⟨schema, h⟩
  | pointer _ ih | array _ ih =>
      obtain ⟨elem, helem, -⟩ := bind_pure_eq_ok.mp h
      exact ih helem
  | slice hmentions ih =>
      rw [layer] at h
      split at h
      · next hbyte =>
        -- A byte string has no names in it.
        cases hmentions <;> cases hbyte
      · obtain ⟨elem, helem, -⟩ := bind_pure_eq_ok.mp h
        exact ih helem
  | key _ ih =>
      obtain ⟨key, mid, hkey, -⟩ := bind_eq_ok.mp h
      exact ih hkey
  | @value k v _ ih =>
      obtain ⟨key, -, h⟩ := (layer_restores hexpand k).bind_ok h
      split at h
      · obtain ⟨val, hval, -⟩ := bind_pure_eq_ok.mp h
        exact ih hval
      · exact (throw_ne_ok h).elim
  | field hd hdashed _ ih =>
      obtain ⟨fields, hfields, -⟩ := bind_pure_eq_ok.mp h
      obtain ⟨schema, hschema⟩ := layerFields_ok_field hexpand hfields hd hdashed
      exact ih hschema

theorem layerFields_error_field (hexpand : ∀ name, Restores (expand name))
    {decls : List (FieldDecl TypeExpr)} {front : FieldList} {e : SchemaError} {display : String}
    (h : layerFields expand front decls stack = .error e stack')
    (he : e.root = .cyclic display) :
    ∃ d ∈ decls, ¬ d.Dashed ∧ ∃ cause, layer expand d.type stack = .error cause stack ∧
      cause.root = .cyclic display := by
  induction decls generalizing front with
  | nil => exact (pure_ne_error h).elim
  | cons x decls ih =>
      have hx := layer_restores hexpand x.type
      have hbehind : ∀ {front}, layerFields expand front decls stack = .error e stack' →
          ∃ d ∈ x :: decls, ¬ d.Dashed ∧ ∃ cause, layer expand d.type stack = .error cause stack ∧
            cause.root = .cyclic display := by
        intro front h
        obtain ⟨d, hd, hfails⟩ := ih h
        exact ⟨d, List.mem_cons_of_mem x hd, hfails⟩
      rw [layerFields] at h
      split at h
      · obtain ⟨rfl, -⟩ := throw_eq_error.mp h
        cases he
      · rcases (Restores.constraints x.name _).bind_error h with htag | ⟨tag, htag, h⟩
        · obtain ⟨cause, -, rfl, -⟩ := constraints_eq_error.mp htag
          cases he
        have htag := (constraints_eq_ok.mp htag).1
        split at h
        · rcases hx.attempt.bind_error h with hkept | ⟨kept, -, h⟩
          · exact (attempt_ne_error hkept).elim
          · exact hbehind h
        · next hskip =>
          have hdashed : ¬ x.Dashed := fun hdash => hskip ((Tag.skip_iff_dashed htag).mpr hdash)
          rcases (hx.inField x.name).bind_error h with hschema | ⟨schema, -, h⟩
          · obtain ⟨cause, hcause, rfl⟩ := inField_eq_error.mp hschema
            exact ⟨x, List.mem_cons_self, hdashed, cause, hcause, he⟩
          rcases (Restores.constraints x.name _).bind_error h with hcompiled | ⟨compiled, -, h⟩
          · obtain ⟨cause, -, rfl, -⟩ := constraints_eq_error.mp hcompiled
            cases he
          · exact hbehind h

theorem exists_mentions_of_cyclic (hexpand : ∀ name, Restores (expand name)) {type : TypeExpr}
    {e : SchemaError} {display : String} (h : layer expand type stack = .error e stack')
    (he : e.root = .cyclic display) :
    ∃ name, type.Mentions name ∧ ∃ cause, expand name stack = .error cause stack ∧
      cause.root = .cyclic display := by
  induction type generalizing stack' e with
  | named name =>
      obtain rfl := (hexpand name).error h
      exact ⟨name, .named, e, h, he⟩
  | scalar kind => exact (pure_ne_error h).elim
  | pointer elem ih =>
      obtain ⟨name, hname, hcause⟩ := ih (bind_pure_eq_error.mp h) he
      exact ⟨name, .pointer hname, hcause⟩
  | array n elem ih =>
      obtain ⟨name, hname, hcause⟩ := ih (bind_pure_eq_error.mp h) he
      exact ⟨name, .array hname, hcause⟩
  | slice elem ih =>
      rw [layer] at h
      split at h
      · exact (pure_ne_error h).elim
      · obtain ⟨name, hname, hcause⟩ := ih (bind_pure_eq_error.mp h) he
        exact ⟨name, .slice hname, hcause⟩
  | map key value ihkey ihvalue =>
      rcases (layer_restores hexpand key).bind_error h with hkey | ⟨k, -, h⟩
      · obtain ⟨name, hname, hcause⟩ := ihkey hkey he
        exact ⟨name, .key hname, hcause⟩
      split at h
      · obtain ⟨name, hname, hcause⟩ := ihvalue (bind_pure_eq_error.mp h) he
        exact ⟨name, .value hname, hcause⟩
      · obtain ⟨rfl, -⟩ := throw_eq_error.mp h
        cases he
  | struct decls ih =>
      obtain ⟨d, hd, hdashed, cause, hcause, hroot⟩ :=
        layerFields_error_field hexpand (bind_pure_eq_error.mp h) he
      obtain ⟨name, hname, hcause⟩ := ih d hd hcause hroot
      exact ⟨name, .field hd hdashed hname, hcause⟩
  | unsupported shape =>
      obtain ⟨rfl, -⟩ := throw_eq_error.mp h
      cases he

end Builder

end SchemaWire
