import Mathlib.Data.List.Perm.Subperm
import Mathlib.Logic.Relation
import SchemaWire.Proofs.Schema.Expansion

/-!
Which names are reported as containing themselves.

A registered name refers to the names that the expression behind it mentions. While a name is
expanded, the stack is a trail of references that leads to it: a name found on the stack reaches
itself. In the other direction, a name that is expanded along a chain of references has the whole
chain on the stack, so a chain that returns to a name cannot be expanded to its end.
-/

namespace SchemaWire

open Relation Stateful

namespace Registry

/-- The expression behind the name mentions the other name. -/
def Refers (reg : Registry) (name other : String) : Prop :=
  ∃ named, reg.resolve? name = some named ∧ named.underlying.Mentions other

theorem mem_of_lookup {name : String} {entries : List (String × NamedType)} {named : NamedType}
    (h : lookup name entries = some named) : (name, named) ∈ entries := by
  induction entries with
  | nil => cases h
  | cons entry entries ih =>
      rw [lookup] at h
      split at h
      · next heq =>
        cases h
        rw [← heq]
        exact List.mem_cons_self
      · exact List.mem_cons_of_mem entry (ih h)

theorem mem_names_of_resolve {reg : Registry} {name : String} {named : NamedType}
    (h : reg.resolve? name = some named) : name ∈ reg.names :=
  List.mem_map_of_mem (f := Prod.fst) (mem_of_lookup h)

/-- What is true of the stack when a name is expanded with a number of layers left: the names on it
are registered and different, and with the layers there is room for every registered name. -/
structure Room (reg : Registry) (layers : Nat) (stack : List String) : Prop where
  nodup : stack.Nodup
  registered : stack ⊆ reg.names
  room : reg.size ≤ stack.length + layers

namespace Room

variable {reg : Registry} {layers : Nat} {stack : List String} {name : String}

theorem start (reg : Registry) : Room reg reg.size [] where
  nodup := List.nodup_nil
  registered := List.nil_subset _
  room := by simp

theorem push (h : Room reg (layers + 1) stack) (hname : name ∈ reg.names) (hfresh : name ∉ stack) :
    Room reg layers (name :: stack) where
  nodup := List.nodup_cons.mpr ⟨hfresh, h.nodup⟩
  registered := List.cons_subset.mpr ⟨hname, h.registered⟩
  room := by
    have hroom := h.room
    rw [List.length_cons]
    omega

/-- Without a layer left, every registered name is on the stack. -/
theorem mem_of_full (h : Room reg 0 stack) (hname : name ∈ reg.names) : name ∈ stack := by
  have hsub : stack.Subperm reg.names := h.nodup.subperm h.registered
  have hlength : reg.names.length ≤ stack.length := by
    simpa [names, size] using h.room
  have hperm := hsub.perm_of_length_le hlength
  exact hperm.mem_iff.mpr hname

end Room

/-- The same of the stack when that name is expanded, and each name on it reaches the name. -/
structure Trail (reg : Registry) (layers : Nat) (stack : List String) (name : String) : Prop where
  nodup : stack.Nodup
  registered : stack ⊆ reg.names
  room : reg.size ≤ stack.length + layers
  reaches : ∀ other ∈ stack, TransGen reg.Refers other name

namespace Trail

variable {reg : Registry} {layers : Nat} {stack : List String} {name other : String}
  {named : NamedType}

theorem start (reg : Registry) (name : String) : Trail reg reg.size [] name where
  nodup := List.nodup_nil
  registered := List.nil_subset _
  room := (Room.start reg).room
  reaches := nofun

theorem hasRoom (h : Trail reg layers stack name) : Room reg layers stack :=
  ⟨h.nodup, h.registered, h.room⟩

theorem push (h : Trail reg (layers + 1) stack name) (hnamed : reg.resolve? name = some named)
    (hfresh : name ∉ stack) (hmentions : named.underlying.Mentions other) :
    Trail reg layers (name :: stack) other := by
  have hroom := h.hasRoom.push (mem_names_of_resolve hnamed) hfresh
  refine ⟨hroom.nodup, hroom.registered, hroom.room, fun above habove => ?_⟩
  have hrefers : reg.Refers name other := ⟨named, hnamed, hmentions⟩
  rcases List.mem_cons.mp habove with rfl | habove
  · exact .single hrefers
  · exact (h.reaches above habove).tail hrefers

end Trail

end Registry

namespace Builder

variable {reg : Registry} {stack stack' : List String} {name other : String}

theorem cyclic_of_resolve_error {layers : Nat} {e : SchemaError} {display : String}
    (htrail : reg.Trail layers stack name) (h : resolve reg name stack = .error e stack')
    (he : e.root = .cyclic display) :
    ∃ named, reg.resolve? name = some named ∧ named.display = display ∧
      TransGen reg.Refers name name := by
  obtain ⟨-, ⟨-, rfl⟩ | ⟨named, hnamed, hmem, rfl⟩⟩ := resolve_eq_error.mp h
  · cases he
  · obtain rfl := SchemaError.cyclic.inj he
    exact ⟨named, hnamed, rfl, htrail.reaches name hmem⟩

/-- A type that is reported to contain itself is reached from the name under expansion, and
reaches itself. -/
theorem exists_cycle_of_expand {layers : Nat} {e : SchemaError} {display : String}
    (htrail : reg.Trail layers stack name) (h : expand reg layers name stack = .error e stack')
    (he : e.root = .cyclic display) :
    ∃ other named, ReflTransGen reg.Refers name other ∧ reg.resolve? other = some named ∧
      named.display = display ∧ TransGen reg.Refers other other := by
  -- By induction on the layers left; the trail grows by the name that is expanded.
  induction layers generalizing name stack stack' e with
  | zero =>
      rcases (resolve_restores reg name).bind_error h with hresolve | ⟨named, hresolve, -⟩
      · obtain ⟨named, hcycle⟩ := cyclic_of_resolve_error htrail hresolve he
        exact ⟨name, named, .refl, hcycle⟩
      · obtain ⟨hnamed, hfresh, -⟩ := resolve_eq_ok.mp hresolve
        exact (hfresh (htrail.hasRoom.mem_of_full (Registry.mem_names_of_resolve hnamed))).elim
  | succ layers ih =>
      rcases (resolve_restores reg name).bind_error h with hresolve | ⟨named, hresolve, h⟩
      · obtain ⟨named, hcycle⟩ := cyclic_of_resolve_error htrail hresolve he
        exact ⟨name, named, .refl, hcycle⟩
      · obtain ⟨hnamed, hfresh, -⟩ := resolve_eq_ok.mp hresolve
        obtain ⟨mid, hlayer, -⟩ := expanding_eq_error.mp (bind_pure_eq_error.mp h)
        obtain ⟨next, hnext, cause, hcause, hroot⟩ :=
          exists_mentions_of_cyclic (expand_restores reg layers) hlayer he
        obtain ⟨other, found, hreach, hcycle⟩ :=
          ih (htrail.push hnamed hfresh hnext) hcause hroot
        exact ⟨other, found, .head ⟨named, hnamed, hnext⟩ hreach, hcycle⟩

/-- A name that has a schema is expanded with a layer at hand, and then so is every name that it
refers to, with one layer less and the name on the stack. -/
theorem expand_ok_of_refers {layers : Nat} {schema : Schema}
    (h : expand reg layers name stack = .ok schema stack') (hrefers : reg.Refers name other) :
    ∃ below inner, layers = below + 1 ∧ name ∉ stack ∧
      expand reg below other (name :: stack) = .ok inner (name :: stack) := by
  obtain ⟨named, hnamed, hmentions⟩ := hrefers
  cases layers with
  | zero =>
      obtain ⟨_, -, h⟩ := (resolve_restores reg name).bind_ok h
      exact (throw_ne_ok h).elim
  | succ below =>
      obtain ⟨found, hfound, h⟩ := (resolve_restores reg name).bind_ok h
      obtain ⟨hfound, hfresh, -⟩ := resolve_eq_ok.mp hfound
      obtain rfl : found = named := Option.some.inj (hfound.symm.trans hnamed)
      obtain ⟨built, hbuilt, -⟩ := bind_pure_eq_ok.mp h
      obtain ⟨mid, hlayer, -⟩ := expanding_eq_ok.mp hbuilt
      obtain ⟨inner, hinner⟩ := expand_ok_of_mentions (expand_restores reg below) hlayer hmentions
      exact ⟨below, inner, rfl, hfresh, hinner⟩

/-- The name is expanded to a schema while the names on the stack are. -/
def Expands (reg : Registry) (stack : List String) (name : String) : Prop :=
  ∃ layers schema stack', expand reg layers name stack = .ok schema stack'

namespace Expands

theorem resolve (h : Expands reg stack name) :
    ∃ named, reg.resolve? name = some named ∧ name ∉ stack := by
  obtain ⟨layers, schema, stack', h⟩ := h
  have hresolve : ∃ named, Builder.resolve reg name stack = .ok named stack := by
    cases layers <;> obtain ⟨named, hnamed, -⟩ := (resolve_restores reg name).bind_ok h <;>
      exact ⟨named, hnamed⟩
  obtain ⟨named, hnamed⟩ := hresolve
  obtain ⟨hnamed, hfresh, -⟩ := resolve_eq_ok.mp hnamed
  exact ⟨named, hnamed, hfresh⟩

theorem of_refers (h : Expands reg stack name) (hrefers : reg.Refers name other) :
    Expands reg (name :: stack) other := by
  obtain ⟨layers, schema, stack', h⟩ := h
  obtain ⟨below, inner, -, -, hinner⟩ := expand_ok_of_refers h hrefers
  exact ⟨below, inner, name :: stack, hinner⟩

theorem of_reaches (h : Expands reg stack name) (hreach : ReflTransGen reg.Refers name other) :
    ∃ stack', Expands reg stack' other := by
  induction hreach with
  | refl => exact ⟨stack, h⟩
  | tail _ hrefers ih =>
      obtain ⟨stack', hexpands⟩ := ih
      exact ⟨_, hexpands.of_refers hrefers⟩

theorem of_chain (h : Expands reg stack name) (hchain : TransGen reg.Refers name other) :
    ∃ stack', name ∈ stack' ∧ Expands reg stack' other := by
  induction hchain with
  | single hrefers => exact ⟨name :: stack, List.mem_cons_self, h.of_refers hrefers⟩
  | tail _ hrefers ih =>
      obtain ⟨stack', hmem, hexpands⟩ := ih
      exact ⟨_, List.mem_cons_of_mem _ hmem, hexpands.of_refers hrefers⟩

theorem acyclic (h : Expands reg stack name) : ¬ TransGen reg.Refers name name := by
  intro hcycle
  obtain ⟨stack', hmem, hexpands⟩ := h.of_chain hcycle
  obtain ⟨named, -, hfresh⟩ := hexpands.resolve
  exact hfresh hmem

end Expands

end Builder

namespace Schema

theorem ofBuilder_eq_error {α : Type} {body : Builder α} {e : SchemaError} :
    ofBuilder body = .error e ↔ ∃ stack, body [] = .error e stack := by
  unfold ofBuilder
  cases body [] <;> simp

/-- Cycles are found exactly. A name gets a schema only if all names that it reaches are registered
and none of them reaches itself; and the type that is reported to contain itself is one that the
name reaches and that reaches itself. -/
theorem buildNamed_cycles (reg : Registry) (name : String) :
    (∀ schema, buildNamed reg name = .ok schema →
      ∀ other, ReflTransGen reg.Refers name other →
        (reg.resolve? other).isSome ∧ ¬ TransGen reg.Refers other other) ∧
    (∀ e display, buildNamed reg name = .error e → e.root = .cyclic display →
      ∃ other named, ReflTransGen reg.Refers name other ∧ reg.resolve? other = some named ∧
        named.display = display ∧ TransGen reg.Refers other other) := by
  constructor
  · intro schema h other hreach
    obtain ⟨stack, h⟩ := ofBuilder_eq_ok.mp h
    have hexpands : Builder.Expands reg [] name := ⟨reg.size, schema, stack, h⟩
    obtain ⟨stack', hother⟩ := hexpands.of_reaches hreach
    obtain ⟨named, hnamed, -⟩ := hother.resolve
    exact ⟨by rw [hnamed, Option.isSome_some], hother.acyclic⟩
  · intro e display h he
    obtain ⟨stack, h⟩ := ofBuilder_eq_error.mp h
    exact Builder.exists_cycle_of_expand (.start reg name) h he

/-- Two types that contain each other, and one that contains a third in several places. -/
def sampleRegistry : Registry :=
  Registry.empty
    |>.define "A" (.struct [⟨"B", .slice (.named "B"), ""⟩])
    |>.define "B" (.struct [⟨"A", .map (.scalar .string) (.named "A"), ""⟩])
    |>.define "Point" (.struct [⟨"X", .scalar (.num .uint8), ""⟩])
    |>.define "Line" (.struct [⟨"From", .named "Point", ""⟩, ⟨"To", .pointer (.named "Point"), ""⟩,
        ⟨"Cache", .named "A", "-"⟩])

theorem buildNamed_cycles_sample :
    (∃ other named, ReflTransGen sampleRegistry.Refers "A" other ∧
      sampleRegistry.resolve? other = some named ∧ named.display = "A" ∧
      TransGen sampleRegistry.Refers other other) ∧
    ReflTransGen sampleRegistry.Refers "Line" "Point" ∧
    (sampleRegistry.resolve? "Point").isSome ∧
    ¬ TransGen sampleRegistry.Refers "Point" "Point" := by
  have hline : ReflTransGen sampleRegistry.Refers "Line" "Point" :=
    .single ⟨_, rfl, .field List.mem_cons_self (by decide) .named⟩
  have hbuilt : ∃ schema, buildNamed sampleRegistry "Line" = .ok schema := ⟨_, rfl⟩
  obtain ⟨schema, hschema⟩ := hbuilt
  have hpoint := (buildNamed_cycles sampleRegistry "Line").1 schema hschema "Point" hline
  refine ⟨?_, hline, hpoint.1, hpoint.2⟩
  exact (buildNamed_cycles sampleRegistry "A").2 _ "A" rfl rfl

end Schema

end SchemaWire
