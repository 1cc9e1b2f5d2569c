import SchemaWire.Proofs.Schema.Inlining

/-!
Building ends.

Expanding a name leaves the type expression it stands in, so the recursion of the builder is not one
over expressions. A name is pushed only if it is registered and not on the stack: each expansion
takes one of the registered names that are not on the stack, and between two expansions the
expressions get smaller. The layers of the model are that many names, and they are never used up:
the builder satisfies the equations of the recursion without layers.

The recursion is spelled out as a relation between a call and the calls that it makes. Later calls
start on the stack that earlier ones leave, also those that failed inside a skipped field, so it
matters that every call puts the stack back.
-/

namespace SchemaWire

open Relation Stateful

namespace Registry

variable {reg : Registry} {name : String} {stack : List String}

def free (reg : Registry) (stack : List String) : Nat :=
  (reg.names.filter (· ∉ stack)).length

theorem free_le_size (reg : Registry) (stack : List String) : reg.free stack ≤ reg.size := by
  have hle : reg.free stack ≤ reg.names.length := List.length_filter_le _ _
  rwa [names, List.length_map] at hle

theorem free_push (hname : name ∈ reg.names) (hfresh : name ∉ stack) :
    reg.free (name :: stack) < reg.free stack := by
  have hfilter : reg.names.filter (· ∉ name :: stack) =
      (reg.names.filter (· ∉ stack)).filter (· ≠ name) := by
    simp [List.filter_filter]
  have hfree : name ∈ reg.names.filter (· ∉ stack) := by
    simp [hname, hfresh]
  rw [free, free, hfilter, List.length_filter_lt_length_iff_exists]
  exact ⟨name, hfree, by simp⟩

structure Guards (reg : Registry) (stack : List String) : Prop where
  nodup : stack.Nodup
  registered : stack ⊆ reg.names

namespace Guards

theorem start (reg : Registry) : reg.Guards [] := ⟨List.nodup_nil, List.nil_subset _⟩

theorem push (h : reg.Guards stack) (hname : name ∈ reg.names) (hfresh : name ∉ stack) :
    reg.Guards (name :: stack) :=
  ⟨List.nodup_cons.mpr ⟨hfresh, h.nodup⟩, List.cons_subset.mpr ⟨hname, h.registered⟩⟩

theorem depth_le (h : reg.Guards stack) : stack.length ≤ reg.size := by
  have hle := (h.nodup.subperm h.registered).length_le
  rwa [names, List.length_map] at hle

end Guards

end Registry

namespace Builder

/-! ### Layers do not matter -/

section Layers

variable {reg : Registry} {name : String} {stack mid : List String}

theorem expanding_congr_apply {α : Type} {body body' : Builder α}
    (h : body' (name :: stack) = body (name :: stack)) :
    expanding name body' stack = expanding name body stack := by
  unfold expanding
  rw [h]

theorem Restores.tracks_of_eq {α : Type} {body body' : Builder α} (h : Restores body)
    (heq : body stack = body' stack) : Tracks True stack stack Eq body body' where
  ok hrun := by
    obtain rfl := h.ok hrun
    exact ⟨rfl, _, heq ▸ hrun, rfl⟩
  error _ _ _ hrun := by
    obtain rfl := h.error hrun
    exact ⟨rfl, heq ▸ hrun⟩

theorem Tracks.apply_eq {α : Type} {body body' : Builder α}
    (h : Tracks True stack stack Eq body body') : body stack = body' stack := by
  cases hbody : body stack with
  | ok a mid =>
      obtain ⟨rfl, _, hbody', rfl⟩ := h.ok hbody
      exact hbody'.symm
  | error e mid =>
      obtain ⟨rfl, hbody'⟩ := h.error trivial hbody
      exact hbody'.symm

theorem free_lt_of_resolve {named : NamedType} (h : resolve reg name stack = .ok named mid) :
    reg.free (name :: stack) < reg.free stack := by
  obtain ⟨hnamed, hfresh, -⟩ := resolve_eq_ok.mp h
  exact Registry.free_push (Registry.mem_names_of_resolve hnamed) hfresh

/-- A name that is resolved has a layer left, and enough of them below it. -/
theorem exists_layer_of_resolve {layers : Nat} {named : NamedType} (hfree : reg.free stack ≤ layers)
    (h : resolve reg name stack = .ok named mid) :
    ∃ below, layers = below + 1 ∧ reg.free (name :: stack) ≤ below := by
  have hpush := free_lt_of_resolve h
  exact ⟨layers - 1, by omega, by omega⟩

theorem expand_of_resolve_error {e : SchemaError} (h : resolve reg name stack = .error e mid)
    (layers : Nat) : expand reg layers name stack = .error e mid := by
  cases layers <;> exact bind_of_error h

/-- With a layer for every name that is not on the stack, more layers change nothing. -/
theorem expand_eq_of_free_le {layers layers' : Nat} (hfree : reg.free stack ≤ layers)
    (hfree' : reg.free stack ≤ layers') :
    expand reg layers' name stack = expand reg layers name stack := by
  -- By induction on the number of free names; one that is resolved has a layer left on both sides.
  induction hcount : reg.free stack using Nat.strongRecOn
    generalizing layers layers' name stack with
  | ind count ih =>
      subst hcount
      cases hresolve : resolve reg name stack with
      | error e mid =>
          rw [expand_of_resolve_error hresolve, expand_of_resolve_error hresolve]
      | ok named mid =>
          obtain ⟨below, rfl, hbelow⟩ := exists_layer_of_resolve hfree hresolve
          obtain ⟨below', rfl, hbelow'⟩ := exists_layer_of_resolve hfree' hresolve
          have hless := free_lt_of_resolve hresolve
          obtain rfl := (resolve_restores reg name).ok hresolve
          have hlayer : Tracks True (name :: mid) (name :: mid) Eq
              (layer (expand reg below') named.underlying)
              (layer (expand reg below) named.underlying) :=
            layer_tracks_eq fun other _ =>
              (expand_restores reg below' other).tracks_of_eq (ih _ hless hbelow hbelow' rfl)
          refine bind_congr_apply rfl fun found s hfound => ?_
          obtain ⟨rfl, rfl⟩ : found = named ∧ s = mid := by
            rw [hresolve] at hfound
            cases hfound
            exact ⟨rfl, rfl⟩
          exact bind_congr_apply (expanding_congr_apply hlayer.apply_eq) fun _ _ _ => rfl

/-- The schema of a name, with a layer for each registered name that is not on the stack. -/
def expandAll (reg : Registry) (name : String) : Builder Schema := fun stack =>
  expand reg (reg.free stack) name stack

theorem expandAll_restores (reg : Registry) (name : String) : Restores (expandAll reg name) where
  ok {stack _ _} h := (expand_restores reg (reg.free stack) name).ok h
  error {stack _ _} h := (expand_restores reg (reg.free stack) name).error h

theorem layer_expand_eq {layers : Nat} (type : TypeExpr) (hfree : reg.free stack ≤ layers) :
    layer (expand reg layers) type stack = layer (expandAll reg) type stack :=
  Tracks.apply_eq <| layer_tracks_eq fun other _ =>
    (expand_restores reg layers other).tracks_of_eq (expand_eq_of_free_le (Nat.le_refl _) hfree)

/-- Expanding a name is one layer over expanding names: the recursion of the builder, without a
bound on its depth. -/
theorem expandAll_eq (reg : Registry) (name : String) :
    expandAll reg name = do
      let named ← resolve reg name
      let schema ← expanding name (layer (expandAll reg) named.underlying)
      return schema.withName named.display := by
  funext stack
  have hmore : expandAll reg name stack = expand reg (reg.free stack + 1) name stack :=
    expand_eq_of_free_le (Nat.le_succ _) (Nat.le_refl _)
  rw [hmore, expand]
  refine bind_congr_apply rfl fun named mid hresolve => ?_
  obtain ⟨_, ⟨rfl⟩, hbelow⟩ := exists_layer_of_resolve (Nat.le_succ _) hresolve
  obtain rfl := (resolve_restores reg name).ok hresolve
  have hlayer := layer_expand_eq named.underlying hbelow
  exact bind_congr_apply (expanding_congr_apply hlayer) fun _ _ _ => rfl

end Layers

/-! ### The calls that a call makes -/

/-- A step of the recursion: a name to expand, an expression to build, or what is left of the
declarations of a struct after some fields. -/
inductive Call where
  | expand (name : String)
  | build (type : TypeExpr)
  | fields (front : FieldList) (decls : List (FieldDecl TypeExpr))

structure Activation where
  call : Call
  stack : List String

/-- Makes the call. It returns a schema, or the fields of a struct. -/
def Call.run (reg : Registry) : Call → Builder (Schema ⊕ FieldList)
  | .expand name => do return Sum.inl (← expandAll reg name)
  | .build type => do return Sum.inl (← layer (expandAll reg) type)
  | .fields front decls => do return Sum.inr (← layerFields (expandAll reg) front decls)

noncomputable def Call.size : Call → Nat
  | .expand _ => 0
  | .build type => sizeOf type
  | .fields _ decls => sizeOf decls

structure Declares (front : FieldList) (d : FieldDecl TypeExpr) (tag : Tag) : Prop where
  fresh : (front.any fun f => f.name = d.name) = false
  parsed : Tag.parse d.tag = .ok tag

/-- The first call makes the second one. A call that comes after another starts on the stack that
the other one leaves. -/
inductive Calls (reg : Registry) : Activation → Activation → Prop where
  | expansion {name : String} {named : NamedType} {stack mid : List String} :
      resolve reg name stack = .ok named mid →
      Calls reg ⟨.expand name, stack⟩ ⟨.build named.underlying, name :: mid⟩
  | named {name : String} {stack : List String} :
      Calls reg ⟨.build (.named name), stack⟩ ⟨.expand name, stack⟩
  | pointer {elem : TypeExpr} {stack : List String} :
      Calls reg ⟨.build (.pointer elem), stack⟩ ⟨.build elem, stack⟩
  | array {length : Nat} {elem : TypeExpr} {stack : List String} :
      Calls reg ⟨.build (.array length elem), stack⟩ ⟨.build elem, stack⟩
  | slice {elem : TypeExpr} {stack : List String} : elem.isByte = false →
      Calls reg ⟨.build (.slice elem), stack⟩ ⟨.build elem, stack⟩
  | key {key value : TypeExpr} {stack : List String} :
      Calls reg ⟨.build (.map key value), stack⟩ ⟨.build key, stack⟩
  | value {key value : TypeExpr} {schema : Schema} {stack mid : List String} :
      layer (expandAll reg) key stack = .ok schema mid → schema.inner.scalarKind?.isSome →
      Calls reg ⟨.build (.map key value), stack⟩ ⟨.build value, mid⟩
  | struct {decls : List (FieldDecl TypeExpr)} {stack : List String} :
      Calls reg ⟨.build (.struct decls), stack⟩ ⟨.fields [] decls, stack⟩
  | field {front : FieldList} {d : FieldDecl TypeExpr} {decls : List (FieldDecl TypeExpr)}
      {tag : Tag} {stack : List String} : Declares front d tag →
      Calls reg ⟨.fields front (d :: decls), stack⟩ ⟨.build d.type, stack⟩
  | afterSkipped {front : FieldList} {d : FieldDecl TypeExpr} {decls : List (FieldDecl TypeExpr)}
      {tag : Tag} {kept : Option Schema} {stack mid : List String} :
      Declares front d tag → tag.skip = true →
      attempt (layer (expandAll reg) d.type) stack = .ok kept mid →
      Calls reg ⟨.fields front (d :: decls), stack⟩
        ⟨.fields (front ++ kept.toList.map fun schema => ⟨d.name, schema, true, []⟩) decls, mid⟩
  | afterField {front : FieldList} {d : FieldDecl TypeExpr} {decls : List (FieldDecl TypeExpr)}
      {tag : Tag} {schema : Schema} {compiled : List Constraint} {stack mid : List String} :
      Declares front d tag → tag.skip = false →
      layer (expandAll reg) d.type stack = .ok schema mid →
      (tag.declarations.mapM fun declaration =>
        Constraint.compile declaration.name declaration.argument d.name schema) = .ok compiled →
      Calls reg ⟨.fields front (d :: decls), stack⟩
        ⟨.fields (front ++ [⟨d.name, schema, false, compiled⟩]) decls, mid⟩

theorem Call.run_restores (reg : Registry) (call : Call) : Restores (call.run reg) := by
  cases call with
  | expand name => exact .bind (expandAll_restores reg name) fun _ => .pure _
  | build type => exact .bind (layer_restores (expandAll_restores reg) type) fun _ => .pure _
  | fields front decls =>
      have hlayer := layer_restores (expandAll_restores reg)
      exact .bind (layerFields_restores (fun d _ => hlayer d.type) front) fun _ => .pure _

namespace Calls

variable {reg : Registry} {a b : Activation}

/-- A call either starts on the stack of its caller, with a smaller part of the expression, or with
one more name on the stack, which was free. -/
theorem step (h : Calls reg a b) :
    (b.stack = a.stack ∧ b.call.size < a.call.size) ∨
    ∃ name, b.stack = name :: a.stack ∧ name ∈ reg.names ∧ name ∉ a.stack := by
  have hlayer := layer_restores (expandAll_restores reg)
  cases h with
  | @expansion name named stack mid hresolve =>
      obtain ⟨hnamed, hfresh, rfl⟩ := resolve_eq_ok.mp hresolve
      exact .inr ⟨name, rfl, Registry.mem_names_of_resolve hnamed, hfresh⟩
  | value hkey _ =>
      refine .inl ⟨(hlayer _).ok hkey, ?_⟩
      simp only [Call.size, TypeExpr.map.sizeOf_spec]
      omega
  | @field front d decls tag stack _ =>
      obtain ⟨name, type, raw⟩ := d
      refine .inl ⟨rfl, ?_⟩
      simp only [Call.size, List.cons.sizeOf_spec, FieldDecl.mk.sizeOf_spec]
      omega
  | afterSkipped _ _ hkept =>
      refine .inl ⟨(hlayer _).attempt.ok hkept, ?_⟩
      simp only [Call.size, List.cons.sizeOf_spec]
      omega
  | afterField _ _ hschema _ =>
      refine .inl ⟨(hlayer _).ok hschema, ?_⟩
      simp only [Call.size, List.cons.sizeOf_spec]
      omega
  | named | pointer | array | slice | key | struct =>
      refine .inl ⟨rfl, ?_⟩
      simp only [Call.size, TypeExpr.named.sizeOf_spec, TypeExpr.pointer.sizeOf_spec,
        TypeExpr.array.sizeOf_spec, TypeExpr.slice.sizeOf_spec, TypeExpr.map.sizeOf_spec,
        TypeExpr.struct.sizeOf_spec]
      omega

theorem guards (h : Calls reg a b) (ha : reg.Guards a.stack) : reg.Guards b.stack := by
  rcases h.step with ⟨hstack, -⟩ | ⟨name, hstack, hname, hfresh⟩
  · rw [hstack]
    exact ha
  · rw [hstack]
    exact ha.push hname hfresh

/-- There is no endless chain of calls: a call has fewer free names than its caller, or as many and
a smaller expression. -/
theorem wellFounded (reg : Registry) : WellFounded fun b a => Calls reg a b := by
  have horder := (Prod.lex Nat.lt_wfRel Nat.lt_wfRel).wf
  refine Subrelation.wf (fun {b a} h => ?_)
    (InvImage.wf (fun a : Activation => (reg.free a.stack, a.call.size)) horder)
  show Prod.Lex _ _ (reg.free b.stack, b.call.size) (reg.free a.stack, a.call.size)
  rcases h.step with ⟨hstack, hsize⟩ | ⟨name, hstack, hname, hfresh⟩
  · rw [hstack]
    exact .right _ hsize
  · rw [hstack]
    exact .left _ _ (Registry.free_push hname hfresh)

theorem guards_of_below (h : ReflTransGen (Calls reg) a b) (ha : reg.Guards a.stack) :
    reg.Guards b.stack := by
  induction h with
  | refl => exact ha
  | tail _ hcalls ih => exact hcalls.guards ih

end Calls

/-! ### What a call reads -/

section Reads

variable {reg reg' : Registry}

theorem resolve_congr {name : String} (h : reg'.resolve? name = reg.resolve? name) :
    resolve reg' name = resolve reg name := by
  funext stack
  unfold resolve
  rw [h]

theorem attempt_congr_apply {α : Type} {body body' : Builder α} {stack : List String}
    (h : body' stack = body stack) : attempt body' stack = attempt body stack := by
  unfold attempt
  rw [h]

theorem inField_congr_apply {α : Type} {name : String} {body body' : Builder α}
    {stack : List String} (h : body' stack = body stack) :
    inField name body' stack = inField name body stack := by
  unfold inField
  rw [h]

def Activation.Same (reg reg' : Registry) : Activation → Prop
  | ⟨.expand name, stack⟩ => expandAll reg' name stack = expandAll reg name stack
  | ⟨.build type, stack⟩ => layer (expandAll reg') type stack = layer (expandAll reg) type stack
  | ⟨.fields front decls, stack⟩ =>
    layerFields (expandAll reg') front decls stack = layerFields (expandAll reg) front decls stack

/-- A call does what the calls do that it makes; only the expansion of a name reads the registry. -/
theorem Activation.same_of_calls {a : Activation}
    (hname : ∀ name, a.call = .expand name → reg'.resolve? name = reg.resolve? name)
    (hcalls : ∀ b, Calls reg a b → b.Same reg reg') : a.Same reg reg' := by
  obtain ⟨call, stack⟩ := a
  cases call with
  | expand name =>
      simp only [Activation.Same, expandAll_eq]
      rw [resolve_congr (hname name rfl)]
      refine bind_congr_apply rfl fun named mid hresolve => ?_
      have hbody := hcalls _ (.expansion hresolve)
      exact bind_congr_apply (expanding_congr_apply hbody) fun _ _ _ => rfl
  | build type =>
      cases type with
      | named name => exact hcalls ⟨.expand name, stack⟩ .named
      | scalar kind => exact rfl
      | pointer elem => exact bind_congr_apply (hcalls _ .pointer) fun _ _ _ => rfl
      | array length elem => exact bind_congr_apply (hcalls _ .array) fun _ _ _ => rfl
      | slice elem =>
          simp only [Activation.Same, layer]
          split
          · rfl
          · next hbyte =>
            have helem := hcalls _ (.slice (Bool.eq_false_iff.mpr hbyte))
            exact bind_congr_apply helem fun _ _ _ => rfl
      | map key value =>
          refine bind_congr_apply (hcalls _ .key) fun schema mid hkey => ?_
          split
          · next hscalar =>
            exact bind_congr_apply (hcalls _ (.value hkey hscalar)) fun _ _ _ => rfl
          · rfl
      | struct decls => exact bind_congr_apply (hcalls _ .struct) fun _ _ _ => rfl
      | unsupported shape => exact rfl
  | fields front decls =>
      cases decls with
      | nil => exact rfl
      | cons d decls =>
          simp only [Activation.Same, layerFields]
          split
          · rfl
          · next hfresh =>
            refine bind_congr_apply rfl fun tag mid htag => ?_
            obtain ⟨hparsed, rfl⟩ := constraints_eq_ok.mp htag
            have hdeclares : Declares front d tag := ⟨Bool.eq_false_iff.mpr hfresh, hparsed⟩
            have htype := hcalls _ (.field hdeclares)
            split
            · next hskip =>
              refine bind_congr_apply (attempt_congr_apply htype) fun kept _ hkept => ?_
              exact hcalls _ (.afterSkipped hdeclares hskip hkept)
            · next hskip =>
              refine bind_congr_apply (inField_congr_apply htype) fun schema _ hschema => ?_
              refine bind_congr_apply rfl fun compiled _ hrun => ?_
              obtain ⟨hcompiled, rfl⟩ := constraints_eq_ok.mp hrun
              have hschema := inField_eq_ok.mp hschema
              exact hcalls _ (.afterField hdeclares (Bool.eq_false_iff.mpr hskip) hschema hcompiled)

/-- A call reads no other names than those that the calls below it expand: over a registry that
agrees about these it does the same. -/
theorem Activation.same_of_below (a : Activation)
    (h : ∀ name stack, ReflTransGen (Calls reg) a ⟨.expand name, stack⟩ →
      reg'.resolve? name = reg.resolve? name) : a.Same reg reg' := by
  induction a using (Calls.wellFounded reg).induction with
  | _ a ih =>
      refine same_of_calls (fun name hname => ?_) fun b hcalls => ?_
      · obtain ⟨call, stack⟩ := a
        subst hname
        exact h name stack .refl
      · exact ih b hcalls fun name stack hbelow => h name stack (.head hcalls hbelow)

theorem Call.run_eq_of_below (call : Call) (stack : List String)
    (h : ∀ name stack', ReflTransGen (Calls reg) ⟨call, stack⟩ ⟨.expand name, stack'⟩ →
      reg'.resolve? name = reg.resolve? name) : call.run reg' stack = call.run reg stack := by
  have hsame := Activation.same_of_below ⟨call, stack⟩ h
  cases call <;> exact bind_congr_apply hsame fun _ _ _ => rfl

end Reads

end Builder

namespace Schema

open Builder

variable (reg : Registry)

theorem build_eq_ofBuilder (type : TypeExpr) :
    build reg type = ofBuilder (layer (expandAll reg) type) := by
  unfold build ofBuilder
  rw [layer_expand_eq type (reg.free_le_size [])]

theorem buildNamed_eq_ofBuilder (name : String) :
    buildNamed reg name = ofBuilder (expandAll reg name) := by
  have hrun : expandAll reg name [] = expand reg reg.size name [] :=
    expand_eq_of_free_le (reg.free_le_size []) (Nat.le_refl _)
  unfold buildNamed ofBuilder
  rw [hrun]

/-- Building ends, and its stack stays consistent. A build runs a recursion that has no bound on its
depth but is well founded. Every call in it starts on a stack of registered names that are all
different, so the stack is never deeper than there are registered names. Every call, on whatever
stack, returns with the stack as it was, whether it succeeds or fails; and what it returns depends
on no other names than those that the calls below it expand. -/
theorem build_ends :
    (∀ type, build reg type = ofBuilder (layer (expandAll reg) type)) ∧
    (∀ name, buildNamed reg name = ofBuilder (expandAll reg name)) ∧
    (∀ name, expandAll reg name = do
      let named ← resolve reg name
      let schema ← expanding name (layer (expandAll reg) named.underlying)
      return schema.withName named.display) ∧
    (WellFounded fun inner outer => Calls reg outer inner) ∧
    (∀ root a, ReflTransGen (Calls reg) ⟨root, []⟩ a →
      a.stack.Nodup ∧ a.stack ⊆ reg.names ∧ a.stack.length ≤ reg.size) ∧
    ∀ (call : Call) (stack : List String),
      ((∃ result, call.run reg stack = .ok result stack) ∨
        ∃ e, call.run reg stack = .error e stack) ∧
      ∀ reg' : Registry, (∀ name stack',
        ReflTransGen (Calls reg) ⟨call, stack⟩ ⟨.expand name, stack'⟩ →
          reg'.resolve? name = reg.resolve? name) →
        call.run reg' stack = call.run reg stack := by
  refine ⟨build_eq_ofBuilder reg, buildNamed_eq_ofBuilder reg, expandAll_eq reg,
    Calls.wellFounded reg, fun root a hbelow => ?_, fun call stack => ⟨?_, fun reg' => ?_⟩⟩
  · have hguards := Calls.guards_of_below hbelow (.start reg)
    exact ⟨hguards.nodup, hguards.registered, hguards.depth_le⟩
  · have hrestores := call.run_restores reg
    cases hrun : call.run reg stack with
    | ok result mid =>
        obtain rfl := hrestores.ok hrun
        exact .inl ⟨result, rfl⟩
    | error e mid =>
        obtain rfl := hrestores.error hrun
        exact .inr ⟨e, rfl⟩
  · exact call.run_eq_of_below stack

/-- A type with itself in a skipped field: its name is found below itself, that call fails, and its
stack is put back. -/
theorem build_ends_cachedNode :
    ReflTransGen (Calls (cachedNode (.named "Node"))) ⟨.expand "Node", []⟩
      ⟨.expand "Node", ["Node"]⟩ ∧
    ["Node"].Nodup ∧ ["Node"] ⊆ (cachedNode (.named "Node")).names ∧
    ["Node"].length ≤ (cachedNode (.named "Node")).size ∧
    ∃ e, (Call.expand "Node").run (cachedNode (.named "Node")) ["Node"] = .error e ["Node"] := by
  have hbelow : ReflTransGen (Calls (cachedNode (.named "Node"))) ⟨.expand "Node", []⟩
      ⟨.expand "Node", ["Node"]⟩ := by
    refine .head (.expansion rfl) (.head .struct ?_)
    refine .head (.afterField ⟨rfl, rfl⟩ rfl rfl rfl) ?_
    exact .head (.field ⟨rfl, rfl⟩) (.single .named)
  obtain ⟨-, -, -, -, hguards, hruns⟩ := build_ends (cachedNode (.named "Node"))
  obtain ⟨hnodup, hregistered, hdepth⟩ := hguards _ _ hbelow
  refine ⟨hbelow, hnodup, hregistered, hdepth, ?_⟩
  rcases (hruns (.expand "Node") ["Node"]).1 with ⟨result, hresult⟩ | hfails
  · cases hresult
  · exact hfails

end Schema

end SchemaWire
