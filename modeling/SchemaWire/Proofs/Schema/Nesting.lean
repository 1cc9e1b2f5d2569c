import SchemaWire.Proofs.Schema.Skipped

/-!
A name has one wire form, wherever it is nested.

A name is expanded below different names in different places, and a skipped field in it may be kept
in one place and dropped in another, because its type is under expansion there. Apart from skipped
fields the expansions agree, and they agree with what the name is on its own.
-/

namespace SchemaWire

/-- While the type is built, the name is expanded with these names under expansion, innermost first.
Skipped fields are left out. -/
inductive Registry.Visits (reg : Registry) (root : TypeExpr) : List String → String → Prop where
  | root {name : String} : root.Mentions name → Visits reg root [] name
  | inner {stack : List String} {name other : String} :
      Visits reg root stack name → reg.Refers name other → Visits reg root (name :: stack) other

namespace Schema

variable {reg : Registry} {root : TypeExpr} {schema : Schema} {stack : List String} {name : String}

/-- Whatever a name is expanded to, and under whatever names, it is also expanded to under none, up
to skipped fields. -/
theorem buildNamed_of_expand (hdistinct : reg.DistinctFields) {layers : Nat} {sub : Schema}
    {stack' : List String} (h : Builder.expand reg layers name stack = .ok sub stack') :
    ∃ alone, buildNamed reg name = .ok alone ∧ sub.wire = alone.wire := by
  -- The expansion and the one on its own are both compared with that of the bare form.
  have htracks : Builder.Tracks False stack [] SameWire (Builder.expand reg layers name)
      (Builder.expand reg.bare reg.bare.size name) :=
    Builder.expand_tracks Registry.resolve?_bare hdistinct (.start reg.bare)
      (List.nil_subset stack) False.elim name
  obtain ⟨-, bare, hbare, hwire⟩ := htracks.ok h
  have hsame := ofBuilder_wire_eq (expand_tracks_plain Registry.resolve?_bare hdistinct name)
  rw [ofBuilder_eq_ok.mpr ⟨[], hbare⟩] at hsame
  change (buildNamed reg name).map wire = .ok bare.wire at hsame
  cases halone : buildNamed reg name with
  | error e =>
      rw [halone] at hsame
      cases hsame
  | ok alone =>
      rw [halone] at hsame
      exact ⟨alone, rfl, hwire.trans (Except.ok.inj hsame).symm⟩

/-- A visit that a successful build makes succeeds; the layers at hand are those that the names
above it have left. -/
theorem expand_ok_of_visits (h : build reg root = .ok schema)
    (hvisit : reg.Visits root stack name) :
    ∃ sub, Builder.expand reg (reg.size - stack.length) name stack = .ok sub stack := by
  induction hvisit with
  | root hmentions =>
      obtain ⟨mid, hlayer⟩ := ofBuilder_eq_ok.mp h
      exact Builder.expand_ok_of_mentions (Builder.expand_restores reg reg.size) hlayer hmentions
  | @inner stack name other _ hrefers ih =>
      obtain ⟨sub, hsub⟩ := ih
      obtain ⟨below, inner, hlayers, -, hinner⟩ := Builder.expand_ok_of_refers hsub hrefers
      have hbelow : reg.size - (name :: stack).length = below := by
        rw [List.length_cons]
        omega
      exact ⟨inner, by rw [hbelow, hinner]⟩

/-- A named type has one wire form. Whenever a build of some type succeeds, the expansion of each
name that it visits, under whatever names, is a schema that equals the one of the name on its own
when both are taken without their skipped fields; in particular, the name has one. -/
theorem expand_eq_buildNamed_of_visits (hdistinct : reg.DistinctFields)
    (hbuild : build reg root = .ok schema) (hvisit : reg.Visits root stack name) :
    ∃ sub alone, Builder.expand reg (reg.size - stack.length) name stack = .ok sub stack ∧
      buildNamed reg name = .ok alone ∧ sub.wire = alone.wire := by
  obtain ⟨sub, hsub⟩ := expand_ok_of_visits hbuild hvisit
  obtain ⟨alone, halone, hwire⟩ := buildNamed_of_expand hdistinct hsub
  exact ⟨sub, alone, hsub, halone, hwire⟩

/-- A type whose second field has a type that skips it: the skipped field is dropped below the first
type and kept on its own. -/
def mutualRegistry : Registry :=
  Registry.empty
    |>.define "A" (.struct [⟨"Id", .scalar (.num .uint8), ""⟩, ⟨"B", .named "B", ""⟩])
    |>.define "B" (.struct [⟨"Ok", .scalar .bool, ""⟩, ⟨"A", .pointer (.named "A"), "-"⟩])

theorem expand_eq_buildNamed_of_visits_mutual :
    mutualRegistry.DistinctFields ∧ mutualRegistry.Visits (.named "A") ["A"] "B" ∧
    ∃ sub alone, Builder.expand mutualRegistry 1 "B" ["A"] = .ok sub ["A"] ∧
      buildNamed mutualRegistry "B" = .ok alone ∧ sub.wire = alone.wire := by
  have hdistinct : mutualRegistry.DistinctFields := by
    refine Registry.distinctFields_of_entries (List.forall_mem_cons.mpr ⟨?_, ?_⟩)
    · exact ⟨by decide, fun _ => trivial, fun _ => trivial, trivial⟩
    · exact List.forall_mem_singleton.mpr ⟨by decide, fun _ => trivial, fun _ => trivial, trivial⟩
  have hbuild : ∃ schema, build mutualRegistry (.named "A") = .ok schema := ⟨_, rfl⟩
  obtain ⟨schema, hschema⟩ := hbuild
  have hrefers : mutualRegistry.Refers "A" "B" :=
    ⟨_, rfl, .field (List.mem_cons_of_mem _ List.mem_cons_self) (by decide) .named⟩
  have hvisit : mutualRegistry.Visits (.named "A") ["A"] "B" := .inner (.root .named) hrefers
  exact ⟨hdistinct, hvisit, expand_eq_buildNamed_of_visits hdistinct hschema hvisit⟩

end Schema

end SchemaWire
