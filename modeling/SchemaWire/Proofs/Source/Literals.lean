import SchemaWire.Proofs.Constraint.Compiled
import SchemaWire.Proofs.Scalar.Order
import SchemaWire.Source.Layout

/-!
Literals of emitted source. A literal that suits the type of a field can be written as a literal of
that type, so the reading of a field whose constraints fit it can always be emitted. A float is
written as a numeral only if it is finite, and then the numeral is that of a finite float of its
type that stands for the same number: rounding to the shorter type undoes the widening that the
literal went through when it was read.
-/

namespace SchemaWire

open Stateful Token

/-! ### Literals that suit a type -/

namespace SourceLiteral

variable {type : Schema} {l : Literal}

theorem exists_ofLiteral (field : String) (h : RuleKind.Suits type l) :
    ∃ s, ofLiteral field type.inner.scalarKind? l = .ok s := by
  obtain ⟨kind, hscalar, hkind⟩ := h
  rw [hscalar]
  cases kind with
  | string =>
      obtain ⟨s, rfl⟩ := hkind
      exact ⟨.text s, rfl⟩
  | bool =>
      obtain ⟨b, rfl⟩ := hkind
      exact ⟨.flag b, rfl⟩
  | num k =>
      obtain ⟨word, hword⟩ := hkind
      have hsort := Num.sort_number ⟨k, word⟩
      cases l with
      | text | flag => cases hword
      | signed n =>
          rw [← Option.some.inj hword] at hsort
          have hsort : k.sort = .signed := hsort.symm
          exact ⟨.whole n k, by
            simp [ofLiteral, hsort, (Literal.ofKind_signed_iff hsort).mp ⟨word, hword⟩]⟩
      | unsigned n =>
          rw [← Option.some.inj hword] at hsort
          have hsort : k.sort = .unsigned := hsort.symm
          exact ⟨.whole n k, by
            simp [ofLiteral, hsort, (Literal.ofKind_unsigned_iff hsort).mp ⟨word, hword⟩]⟩
      | float pattern =>
          rw [← Option.some.inj hword] at hsort
          have hsort : k.sort = .float := hsort.symm
          exact ⟨.float pattern k, by simp [ofLiteral, hsort]⟩

end SourceLiteral

theorem Condition.exists_ofRule {field : String} {kind : Option Kind} {rule : Rule}
    (h : ∀ l ∈ rule.literals, ∃ s, SourceLiteral.ofLiteral field kind l = .ok s) :
    ∃ c, ofRule field kind rule = .ok c := by
  have hone : ∀ {l : Literal} {make : SourceLiteral → Condition}, l ∈ rule.literals →
      ∃ c, (do return make (← SourceLiteral.ofLiteral field kind l)) =
        Except.ok (ε := EmitError) c := by
    intro l make hl
    obtain ⟨s, hs⟩ := h l hl
    exact ⟨make s, except_bind_eq_ok.mpr ⟨s, hs, rfl⟩⟩
  cases rule with
  | oneOf choices =>
      obtain ⟨ss, hss⟩ := exists_mapM_eq_ok_iff.mpr h
      exact ⟨.oneOf kind ss, except_bind_eq_ok.mpr ⟨ss, hss, rfl⟩⟩
  | eq | neq | min | max => exact hone List.mem_cons_self
  | _ => exact ⟨_, rfl⟩

theorem Reading.exists_ofField {f : Field Schema}
    (h : ∀ k ∈ f.constraints, ∀ l ∈ k.rule.literals, RuleKind.Suits f.type l) :
    ∃ r, ofField f = .ok r := by
  have hcheck : ∀ k ∈ f.constraints, ∃ c,
      Check.ofConstraint f.type.inner.scalarKind? k = .ok c := by
    intro k hk
    obtain ⟨c, hc⟩ := Condition.exists_ofRule fun l hl =>
      SourceLiteral.exists_ofLiteral k.field (h k hk l hl)
    exact ⟨⟨k.field, k.description, c⟩, except_bind_eq_ok.mpr ⟨c, hc, rfl⟩⟩
  obtain ⟨gates, hgates⟩ := exists_mapM_eq_ok_iff.mpr fun k (hk : k ∈ f.gates) =>
    hcheck k (List.mem_filter.mp hk).1
  obtain ⟨checks, hchecks⟩ := exists_mapM_eq_ok_iff.mpr fun k (hk : k ∈ f.checks) =>
    hcheck k (List.mem_filter.mp hk).1
  exact ⟨⟨gates, checks⟩, except_bind_eq_ok.mpr
    ⟨gates, hgates, except_bind_eq_ok.mpr ⟨checks, hchecks, rfl⟩⟩⟩

/-! ### Floats -/

theorem BinaryFormat.magnitude_lt_infinity (f : BinaryFormat) {bits : Nat}
    (hnan : ¬ f.isNan bits = true) (hinfinite : ¬ f.isInfinite bits = true) :
    f.magnitude bits < f.infinity := by
  rw [isNan, decide_eq_true_eq] at hnan
  rw [isInfinite, decide_eq_true_eq] at hinfinite
  omega

namespace Num

variable {k : NumKind} {word : BitVec k.bits} {pattern : BitVec 64}

theorem value?_of_number_eq_float (h : number ⟨k, word⟩ = .float pattern) :
    k.format.value? word.toNat = BinaryFormat.double.value? pattern.toNat := by
  have hsort := sort_number ⟨k, word⟩
  have hvalue := value?_number ⟨k, word⟩
  rw [h] at hsort hvalue
  have hsort : k.sort = .float := hsort.symm
  simp only [value?, hsort] at hvalue
  exact hvalue.symm

/-- A finite float is restored from its pattern on the long format. -/
theorem toNat_of_number_eq_float (h : number ⟨k, word⟩ = .float pattern)
    (hfinite : k.format.magnitude word.toNat < k.format.infinity) :
    (if k.format = .double then pattern.toNat
      else BinaryFormat.double.convert k.format pattern.toNat) = word.toNat := by
  cases k with
  | float64 =>
      rw [number_float64] at h
      obtain rfl := Number.float.inj h
      exact Nat.mod_eq_of_lt word.isLt
  | float32 =>
      rw [number_float32] at h
      obtain rfl := Number.float.inj h
      have hwide : BinaryFormat.single.convert .double word.toNat < 2 ^ 64 :=
        BinaryFormat.single.convert_lt .double (by decide) _
      rw [if_neg (by decide), BitVec.toNat_ofNat, Nat.mod_eq_of_lt hwide]
      exact BinaryFormat.single_widens_double.convert_convert word.isLt hfinite
  | _ => cases h

end Num

namespace SourceLiteral

/-- How a float is spelled in source: by a constant of its type, or by the numeral of a finite
pattern of its type that stands for the same number. -/
def SpellsFloat (pattern : BitVec 64) (k : NumKind) : Prop :=
  (∃ constant ∈ ["NAN", "INFINITY", "NEG_INFINITY"],
    (float pattern k).tokens = .word (SourceType.numName k) :: path [constant]) ∨
  ∃ bits, k.format.magnitude bits < k.format.infinity ∧
    k.format.value? bits = BinaryFormat.double.value? pattern.toNat ∧
    (float pattern k).tokens = signedNumeral (k.format.isNegative bits)
      (k.format.text (k.format.magnitude bits)) (SourceType.numName k)

theorem spellsFloat {k : NumKind} {pattern : BitVec 64}
    (h : (Literal.float pattern).OfKind (.num k)) : SpellsFloat pattern k := by
  obtain ⟨word, hword⟩ := h
  have hnumber : Num.number ⟨k, word⟩ = .float pattern := (Option.some.inj hword).symm
  have hvalue := Num.value?_of_number_eq_float hnumber
  by_cases hnan : BinaryFormat.double.isNan pattern.toNat = true
  · exact .inl ⟨"NAN", List.mem_cons_self, if_pos hnan⟩
  by_cases hinfinite : BinaryFormat.double.isInfinite pattern.toNat = true
  · refine .inl ⟨_, ?_, (if_neg hnan).trans (if_pos hinfinite)⟩
    split <;> simp
  have hfinite : k.format.magnitude word.toNat < k.format.infinity := by
    rw [BinaryFormat.isInfinite_iff_value?, ← hvalue, ← BinaryFormat.isInfinite_iff_value?]
      at hinfinite
    rw [← BinaryFormat.value?_eq_none_iff, ← hvalue, BinaryFormat.value?_eq_none_iff] at hnan
    exact k.format.magnitude_lt_infinity hnan hinfinite
  refine .inr ⟨word.toNat, hfinite, hvalue, ((if_neg hnan).trans (if_neg hinfinite)).trans ?_⟩
  rw [Num.toNat_of_number_eq_float hnumber hfinite]

theorem spellsFloat_of_ofLiteral {type : Schema} {l : Literal} {field : String}
    {pattern : BitVec 64} {k : NumKind} (h : RuleKind.Suits type l)
    (hs : ofLiteral field type.inner.scalarKind? l = .ok (.float pattern k)) :
    SpellsFloat pattern k := by
  obtain ⟨kind, hscalar, hkind⟩ := h
  rw [hscalar] at hs
  cases kind with
  | string | bool => cases l <;> cases hs
  | num k' =>
      cases l with
      | text | flag => cases hs
      | signed | unsigned =>
          rw [ofLiteral] at hs
          split at hs <;> cases hs
      | float =>
          rw [ofLiteral] at hs
          split at hs <;> cases hs
          exact spellsFloat hkind

end SourceLiteral

end SchemaWire
