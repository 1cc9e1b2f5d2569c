import Mathlib.Algebra.Group.Int.Defs
import Mathlib.Algebra.Group.Nat.Defs
import SchemaWire.Constraint.Literal

/-!
Literals as values of a scalar kind. A literal that was read for a kind is a text, a truth value, or
the number that some word of the kind stands for, so it is in the range of the kind. For floats this
rests on the bit patterns that decimal text is read to having no more bits than their format.
-/

namespace SchemaWire

/-! ### Bit patterns of decimal text -/

namespace BinaryFormat

variable (f : BinaryFormat)

theorem infinity_add_lt_signWeight {extra : Nat} (h : extra < 2 ^ f.fractionBits) :
    f.infinity + extra < f.signWeight := by
  have hpos : 0 < 2 ^ f.exponentBits := Nat.two_pow_pos _
  have hweight : f.signWeight = f.infinity + 2 ^ f.fractionBits := by
    rw [signWeight, infinity, Nat.pow_add, Nat.sub_mul, Nat.one_mul, Nat.mul_comm]
    rw [Nat.sub_add_cancel (Nat.le_mul_of_pos_left _ hpos)]
  omega

theorem infinity_lt_signWeight : f.infinity < f.signWeight :=
  f.infinity_add_lt_signWeight (Nat.two_pow_pos _)

theorem nan_lt_signWeight (hfraction : 0 < f.fractionBits) : f.nan < f.signWeight :=
  f.infinity_add_lt_signWeight (Nat.pow_lt_pow_right (by omega) (by omega))

theorem withSign_lt {negative : Bool} {magnitude : Nat} (h : magnitude < f.signWeight) :
    f.withSign negative magnitude < 2 * f.signWeight := by
  unfold withSign
  split <;> omega

theorem nearest_le_infinity (num den : Nat) : f.nearest num den ≤ f.infinity :=
  Nat.min_le_left _ _

theorem ofDecimal_le_infinity (digits : Nat) (exponent : Int) :
    f.ofDecimal digits exponent ≤ f.infinity := by
  unfold ofDecimal
  split
  · exact Nat.zero_le _
  · split
    · exact Nat.le_refl _
    · split
      · exact Nat.zero_le _
      · exact f.nearest_le_infinity _ _

theorem read?_lt (hfraction : 0 < f.fractionBits) {cs : List Char} {bits : Nat}
    (h : f.read? cs = some bits) : bits < 2 * f.signWeight := by
  rw [read?, Option.map_eq_some_iff] at h
  obtain ⟨⟨negative, value⟩, -, rfl⟩ := h
  apply f.withSign_lt
  cases value with
  | finite digits e =>
      have hle := f.ofDecimal_le_infinity digits e
      exact Nat.lt_of_le_of_lt hle f.infinity_lt_signWeight
  | infinite => exact f.infinity_lt_signWeight
  | nan => exact f.nan_lt_signWeight hfraction

end BinaryFormat

/-! ### Literals of a kind -/

theorem Num.number_float64 (word : BitVec NumKind.float64.bits) :
    Num.number ⟨.float64, word⟩ = .float (BitVec.ofNat 64 word.toNat) := rfl

theorem Num.number_float32 (word : BitVec NumKind.float32.bits) :
    Num.number ⟨.float32, word⟩ =
      .float (BitVec.ofNat 64 (BinaryFormat.single.convert .double word.toNat)) := by
  have hformat : NumKind.float32.format ≠ .double := by decide
  exact congrArg (fun bits => Number.float (BitVec.ofNat 64 bits)) (if_neg hformat)

namespace Literal

/-- The literal is a value of the kind: a text, a truth value, or the number that a word of the kind
stands for. -/
def OfKind : Kind → Literal → Prop
  | .string, l => ∃ s, l = .text s
  | .bool, l => ∃ b, l = .flag b
  | .num k, l => ∃ word : BitVec k.bits, l.number? = some (Num.number ⟨k, word⟩)

variable {k : NumKind}

theorem ofKind_signed_iff (hsort : k.sort = .signed) {n : Int} :
    OfKind (.num k) (.signed n) ↔ fitsSigned k.bits n = true := by
  have hbits : 0 < k.bits := Nat.mul_pos (by omega) k.width_pos
  have hnumber : ∀ word : BitVec k.bits, Num.number ⟨k, word⟩ = .signed word.toInt := by
    intro word
    simp only [Num.number, hsort]
  simp only [OfKind, number?, hnumber, Option.some.injEq, Number.signed.injEq, fitsSigned,
    Bool.and_eq_true, decide_eq_true_eq]
  constructor
  · rintro ⟨word, rfl⟩
    exact ⟨BitVec.le_toInt word, BitVec.toInt_lt⟩
  · rintro ⟨hlow, hhigh⟩
    exact ⟨BitVec.ofInt k.bits n, (BitVec.toInt_ofInt_eq_self hbits hlow hhigh).symm⟩

theorem ofKind_unsigned_iff (hsort : k.sort = .unsigned) {n : Nat} :
    OfKind (.num k) (.unsigned n) ↔ fitsUnsigned k.bits n = true := by
  have hnumber : ∀ word : BitVec k.bits, Num.number ⟨k, word⟩ = .unsigned word.toNat := by
    intro word
    simp only [Num.number, hsort]
  simp only [OfKind, number?, hnumber, Option.some.injEq, Number.unsigned.injEq, fitsUnsigned,
    decide_eq_true_eq]
  constructor
  · rintro ⟨word, rfl⟩
    exact word.isLt
  · intro hlt
    exact ⟨BitVec.ofNat k.bits n, (Nat.mod_eq_of_lt hlt).symm⟩

theorem ofKind_of_float? (hsort : k.sort = .float) {cs : List Char} {pattern : BitVec 64}
    (h : float? k.format cs = some pattern) : OfKind (.num k) (.float pattern) := by
  unfold float? at h
  split at h
  · next x wide hx hwide =>
    cases k with
    | float64 =>
        obtain rfl := Option.some.inj h
        have hword : BitVec.ofNat 64 (BitVec.ofNat NumKind.float64.bits wide).toNat =
            BitVec.ofNat 64 wide := BitVec.ofNat_toNat 64 (BitVec.ofNat 64 wide)
        exact ⟨BitVec.ofNat _ wide, by rw [number?, Num.number_float64, hword]⟩
    | float32 =>
        have hx : x < 2 ^ 32 := BinaryFormat.read?_lt .single (by decide) hx
        rw [if_neg (by decide)] at h
        split at h
        · cases h
        · obtain rfl := Option.some.inj h
          have hword : (BitVec.ofNat NumKind.float32.bits x).toNat = x := Nat.mod_eq_of_lt hx
          exact ⟨BitVec.ofNat _ x, by rw [number?, Num.number_float32, hword, NumKind.format]⟩
    | _ => cases hsort
  · cases h

theorem ofKind_of_parse? {kind : Kind} {raw : String} {l : Literal}
    (h : parse? kind raw = some l) : OfKind kind l := by
  unfold parse? at h
  split at h
  · cases h
    exact ⟨raw, rfl⟩
  · split at h
    · cases h
      exact ⟨true, rfl⟩
    · split at h
      · cases h
        exact ⟨false, rfl⟩
      · cases h
  · next k =>
    split at h
    · next hsort =>
      obtain ⟨n, hn, rfl⟩ := Option.map_eq_some_iff.mp h
      exact (ofKind_signed_iff hsort).mpr (Option.filter_eq_some_iff.mp hn).2
    · next hsort =>
      obtain ⟨n, hn, rfl⟩ := Option.map_eq_some_iff.mp h
      exact (ofKind_unsigned_iff hsort).mpr (Option.filter_eq_some_iff.mp hn).2
    · next hsort =>
      obtain ⟨pattern, hpattern, rfl⟩ := Option.map_eq_some_iff.mp h
      exact ofKind_of_float? hsort hpattern

end Literal

end SchemaWire
