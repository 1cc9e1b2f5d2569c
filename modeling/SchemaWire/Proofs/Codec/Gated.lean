import SchemaWire.Codec.Decode
import SchemaWire.Proofs.Stateful

/-!
Bounds on a length as gates. A field whose contents follow a length prefix decides its bounds on the
prefix: a length that one of them does not admit ends the reading right behind the prefix, before
any of the contents is read.
-/

namespace SchemaWire

open Reader Stateful

variable {c start behind : Cursor} {n : Nat}

def firstExcluding (gate : List Constraint) (n : Nat) : Option Constraint :=
  gate.find? fun k => !k.rule.admitsLength n

/-- The bound is decided on the length prefix of the field, which comes after the presence byte if
the field is optional. -/
def Field.Gates (f : Field Schema) (k : Constraint) : Prop :=
  ∀ {c start behind : Cursor} {n : Nat},
    (if f.type.isOptional then flag c = .ok true start else start = c) →
    length start = .ok n behind → k.rule.admitsLength n = false →
    ∃ first, firstExcluding f.gates n = some first ∧
      Schema.readField f c = .error (.violation first) behind

theorem exists_firstExcluding {gate : List Constraint} {k : Constraint} (hk : k ∈ gate)
    (hexcluded : k.rule.admitsLength n = false) : ∃ first, firstExcluding gate n = some first := by
  rw [← Option.isSome_iff_exists, firstExcluding, List.find?_isSome]
  exact ⟨k, hk, by simp [hexcluded]⟩

theorem gatedLength_of_excluding {gate : List Constraint} {first : Constraint}
    (hlength : length c = .ok n behind) (hfirst : firstExcluding gate n = some first) :
    gatedLength gate c = .error (.violation first) behind := by
  have hrequire : require (fun k => k.rule.admitsLength n) gate behind =
      .error (.violation first) behind := by
    rw [firstExcluding] at hfirst
    rw [require, hfirst]
    rfl
  rw [gatedLength, bind_of_ok hlength]
  exact bind_of_error hrequire

namespace Schema

theorem read_of_excluding {schema : Schema} {gate : List Constraint} {first : Constraint}
    (hprefixed : schema.isPrefixed = true) (hlength : length c = .ok n behind)
    (hfirst : firstExcluding gate n = some first) :
    schema.read gate c = .error (.violation first) behind := by
  have hgated := gatedLength_of_excluding hlength hfirst
  cases schema with
  | scalar k name =>
      cases k with
      | string => exact bind_of_error hgated
      | bool | num => cases hprefixed
  | sequence | map | bytes => exact bind_of_error hgated
  | optional | array | record => cases hprefixed

theorem gates_of_isPrefixed {f : Field Schema} {k : Constraint} (hskip : f.skip = false)
    (hk : k ∈ f.constraints) (hbounds : k.boundsLength = true)
    (hprefixed : f.type.inner.isPrefixed = true) : f.Gates k := by
  intro c start behind n hstart hlength hexcluded
  have hmem : k ∈ f.gates := List.mem_filter.mpr ⟨hk, hbounds⟩
  obtain ⟨first, hfirst⟩ := exists_firstExcluding hmem hexcluded
  refine ⟨first, hfirst, ?_⟩
  have hread : f.type.read f.gates c = .error (.violation first) behind := by
    cases htype : f.type with
    | optional elem =>
        rw [htype] at hstart hprefixed
        have hprefixed : elem.isPrefixed = true := hprefixed
        have hinner : elem.read f.gates start = .error (.violation first) behind :=
          read_of_excluding hprefixed hlength hfirst
        rw [read, bind_of_ok hstart, if_pos rfl, if_pos hprefixed]
        exact bind_of_error hinner
    | _ =>
        rw [htype] at hstart hprefixed
        obtain rfl : start = c := hstart
        exact read_of_excluding hprefixed hlength hfirst
  rw [readField, hskip]
  exact bind_of_error hread

end Schema

end SchemaWire
