import Mathlib.Tactic.Linarith
import SchemaWire.Decimal.Reading
import SchemaWire.Proofs.Decimal.Units

/-!
Which numbers are too great for a format. A number is rounded to infinity exactly if it is at least
halfway from the greatest finite value to the value that the next magnitude would have, were it not
infinity. This is so of quotients, and of decimals too: the powers of ten that are settled without
computing them are far from the point of overflow.
-/

namespace SchemaWire.BinaryFormat

/-! ### Rounding -/

theorem div_le_roundEven (num den : Nat) : num / den ≤ roundEven num den := by
  simp only [roundEven]
  split
  · exact Nat.le_refl _
  · split
    · exact Nat.le_succ _
    · split
      · exact Nat.le_refl _
      · exact Nat.le_succ _

theorem roundEven_le_succ (num den : Nat) : roundEven num den ≤ num / den + 1 := by
  simp only [roundEven]
  split
  · exact Nat.le_succ _
  · split
    · exact Nat.le_refl _
    · split
      · exact Nat.le_succ _
      · exact Nat.le_refl _

/-- An even number is reached from half a step below it. -/
theorem le_roundEven_iff {t num den : Nat} (hden : 0 < den) (ht : t % 2 = 0) :
    t ≤ roundEven num den ↔ 2 * (t * den) ≤ 2 * num + den := by
  have hnum : num / den * den + num % den = num := Nat.div_add_mod' num den
  have hrest : num % den < den := Nat.mod_lt num hden
  have hfloor := div_le_roundEven num den
  have hceil := roundEven_le_succ num den
  rcases Nat.lt_trichotomy t (num / den + 1) with hlt | heq | hgt
  · have hmul : t * den ≤ num / den * den := Nat.mul_le_mul_right den (Nat.le_of_lt_succ hlt)
    exact ⟨fun _ => by omega, fun _ => by omega⟩
  · -- The quotient is odd, so a tie goes to its successor.
    have hmul : t * den = num / den * den + den := by rw [heq, Nat.succ_mul]
    have hodd : ¬ (num / den) % 2 = 0 := by omega
    rw [hmul, heq]
    simp only [roundEven, if_neg hodd]
    split
    · exact ⟨fun _ => by omega, fun _ => by omega⟩
    · rw [ite_self]
      exact ⟨fun _ => by omega, fun _ => Nat.le_refl _⟩
  · have hmul : (num / den + 2) * den ≤ t * den := Nat.mul_le_mul_right den hgt
    rw [Nat.add_mul] at hmul
    exact ⟨fun _ => by omega, fun _ => by omega⟩

/-! ### The point of overflow -/

variable (f : BinaryFormat)

/-- Half the way from the greatest finite value to the next one. -/
def overflow : ℚ := (f.units (f.infinity - 1) + f.units f.infinity) / 2 / 2 ^ f.unitScale

/-- The format has magnitudes enough for its finite values to have more than one exponent, and a
fraction. -/
structure Regular : Prop where
  fraction : 0 < f.fractionBits
  exponent : 2 ≤ f.exponentBits

theorem single_regular : Regular single := ⟨by decide, by decide⟩

theorem double_regular : Regular double := ⟨by decide, by decide⟩

variable {f}

theorem Regular.exists_infinity (h : f.Regular) :
    ∃ top, 1 ≤ top ∧ 2 ^ f.exponentBits = top + 3 ∧
      f.infinity = (top + 2) * 2 ^ f.fractionBits := by
  have hpow : 2 ^ 2 ≤ 2 ^ f.exponentBits := Nat.pow_le_pow_right (by omega) h.exponent
  refine ⟨2 ^ f.exponentBits - 3, by omega, by omega, ?_⟩
  rw [infinity]
  congr 1
  omega

theorem units_around {top : Nat} (htop : f.infinity = (top + 2) * 2 ^ f.fractionBits) :
    f.units (f.infinity - 1) + f.units f.infinity = (4 * 2 ^ f.fractionBits - 1) * 2 ^ top := by
  have hpos : 0 < 2 ^ f.fractionBits := Nat.two_pow_pos _
  have hlast : f.infinity - 1 = (top + 1) * 2 ^ f.fractionBits + (2 ^ f.fractionBits - 1) := by
    rw [htop, Nat.succ_mul]
    omega
  have hnext : f.infinity = (top + 2) * 2 ^ f.fractionBits + 0 := htop
  have hpow : 2 ^ (top + 2 - 1) = 2 * 2 ^ top := Nat.pow_succ'
  rw [hlast, f.units_add (by omega), hnext, f.units_add hpos, if_neg (Nat.succ_ne_zero _),
    if_neg (Nat.succ_ne_zero _), Nat.add_sub_cancel, hpow, ← Nat.mul_assoc, ← Nat.add_mul]
  congr 1
  omega

/-- What is known of the shift of a number of units: without one the number is below twice the
fraction, and with one it is in the range of its exponent. -/
theorem shift_cases (n fractionBits : Nat) :
    (n.log2 - fractionBits = 0 ∧ n < 2 * 2 ^ fractionBits) ∨
      ∃ shift, n.log2 - fractionBits = shift ∧ 2 ^ fractionBits * 2 ^ shift ≤ n ∧
        n < 2 * 2 ^ fractionBits * 2 ^ shift := by
  by_cases hn : n < 2 * 2 ^ fractionBits
  · refine .inl ⟨?_, hn⟩
    by_cases hzero : n = 0
    · simp [hzero]
    · rw [← Nat.pow_succ'] at hn
      have hlog := (Nat.log2_lt hzero).mpr hn
      omega
  · have hne : n ≠ 0 := by
      rintro rfl
      exact hn (by positivity)
    have hlog : fractionBits ≤ n.log2 := by
      have hle : 2 ^ fractionBits ≤ n := by omega
      exact (Nat.le_log2 hne).mpr hle
    have hsum : n.log2 = fractionBits + (n.log2 - fractionBits) := by omega
    have hbounds := (Nat.log2_eq_iff hne).mp hsum
    refine .inr ⟨_, rfl, ?_, ?_⟩
    · rw [← Nat.pow_add]
      exact hbounds.1
    · rw [← Nat.pow_succ', ← Nat.pow_add]
      convert hbounds.2 using 2
      omega

/-- A number whose exponent is below `top` is below the point of overflow. -/
theorem lt_overflow_of_div_lt {scaled den weight k top : Nat} (hden : 0 < den)
    (hweight : 0 < weight)
    (hk : k < top) (h : scaled / den < 2 * weight * 2 ^ k) :
    2 * scaled < den * ((4 * weight - 1) * 2 ^ top) := by
  have hpow : 2 * 2 ^ k ≤ 2 ^ top := by
    rw [← Nat.pow_succ']
    exact Nat.pow_le_pow_right (by omega) hk
  have hscaled : scaled < 2 * weight * 2 ^ k * den := (Nat.div_lt_iff_lt_mul hden).mp h
  calc 2 * scaled < 2 * (2 * weight * 2 ^ k * den) := by omega
    _ = den * (2 * weight * (2 * 2 ^ k)) := by ring
    _ ≤ den * ((4 * weight - 1) * 2 ^ top) :=
      Nat.mul_le_mul_left _ (Nat.mul_le_mul (by omega) hpow)

theorem overflow_le_of_le_div {scaled den weight shift top : Nat} (hshift : top < shift)
    (h : weight * 2 ^ shift ≤ scaled / den) : den * ((4 * weight - 1) * 2 ^ top) ≤ 2 * scaled := by
  have hpow : 2 * 2 ^ top ≤ 2 ^ shift := by
    rw [← Nat.pow_succ']
    exact Nat.pow_le_pow_right (by omega) hshift
  calc den * ((4 * weight - 1) * 2 ^ top)
      ≤ den * (4 * weight * 2 ^ top) :=
        Nat.mul_le_mul_left _ (Nat.mul_le_mul_right _ (Nat.sub_le _ _))
    _ = 2 * (weight * (2 * 2 ^ top) * den) := by ring
    _ ≤ 2 * (weight * 2 ^ shift * den) :=
      Nat.mul_le_mul_left _ (Nat.mul_le_mul_right _ (Nat.mul_le_mul_left _ hpow))
    _ ≤ 2 * (scaled / den * den) := Nat.mul_le_mul_left _ (Nat.mul_le_mul_right _ h)
    _ ≤ 2 * scaled := Nat.mul_le_mul_left _ (Nat.div_mul_le_self scaled den)

/-- A number whose exponent is `top` is rounded up past it from the point of overflow. -/
theorem two_mul_le_roundEven_iff {scaled den weight top : Nat} (hden : 0 < den) :
    2 * weight ≤ roundEven scaled (den * 2 ^ top) ↔
      den * ((4 * weight - 1) * 2 ^ top) ≤ 2 * scaled := by
  have hscale : den * ((4 * weight - 1) * 2 ^ top) =
      2 * (2 * weight * (den * 2 ^ top)) - den * 2 ^ top := by
    rw [Nat.sub_mul, Nat.one_mul, Nat.mul_sub]
    congr 1
    ring
  rw [le_roundEven_iff (Nat.mul_pos hden (Nat.two_pow_pos top)) (Nat.mul_mod_right 2 weight),
    hscale, Nat.sub_le_iff_le_add]

theorem Regular.nearest_eq_infinity_iff (h : f.Regular) {num den : Nat} (hden : 0 < den) :
    f.nearest num den = f.infinity ↔
      den * (f.units (f.infinity - 1) + f.units f.infinity) ≤ 2 * (num * 2 ^ f.unitScale) := by
  obtain ⟨top, htop, -, hinfinity⟩ := h.exists_infinity
  rw [units_around hinfinity, nearest, min_eq_left_iff, hinfinity]
  generalize num * 2 ^ f.unitScale = scaled
  have hpos : 0 < 2 ^ f.fractionBits := Nat.two_pow_pos _
  rcases shift_cases (scaled / den) f.fractionBits with ⟨hshift, hn⟩ | ⟨shift, hshift, hn, hn'⟩
  · -- The number is far below: no shift is needed for it.
    have hround := roundEven_le_succ scaled den
    have hsmall : scaled / den < 2 * 2 ^ f.fractionBits * 2 ^ 0 := by omega
    have hless := lt_overflow_of_div_lt hden hpos htop hsmall
    have htwo : 2 * 2 ^ f.fractionBits < (top + 2) * 2 ^ f.fractionBits :=
      Nat.mul_lt_mul_of_pos_right (by omega) hpos
    rw [hshift, Nat.pow_zero, Nat.mul_one, Nat.zero_mul, Nat.zero_add]
    exact ⟨fun _ => by omega, fun _ => by omega⟩
  · have hquotient : scaled / (den * 2 ^ shift) = scaled / den / 2 ^ shift :=
      (Nat.div_div_eq_div_mul ..).symm
    have hfloor := div_le_roundEven scaled (den * 2 ^ shift)
    have hceil := roundEven_le_succ scaled (den * 2 ^ shift)
    have hleast : 2 ^ f.fractionBits ≤ scaled / den / 2 ^ shift :=
      (Nat.le_div_iff_mul_le (Nat.two_pow_pos _)).mpr hn
    have hmost : scaled / den / 2 ^ shift < 2 * 2 ^ f.fractionBits :=
      (Nat.div_lt_iff_lt_mul (Nat.two_pow_pos _)).mpr hn'
    rw [hquotient] at hfloor hceil
    rw [hshift]
    rcases Nat.lt_trichotomy shift top with hlt | rfl | hgt
    · -- Its exponent is below the greatest one.
      have hless := lt_overflow_of_div_lt hden hpos hlt hn'
      have hexponent : shift * 2 ^ f.fractionBits + 3 * 2 ^ f.fractionBits ≤
          (top + 2) * 2 ^ f.fractionBits := by
        rw [← Nat.add_mul]
        exact Nat.mul_le_mul_right _ (by omega)
      exact ⟨fun _ => by omega, fun _ => by omega⟩
    · -- It has the greatest exponent, and is rounded up or not.
      rw [Nat.add_mul, Nat.add_le_add_iff_left, two_mul_le_roundEven_iff hden]
    · -- Its exponent is the one of infinity, or above.
      have hexponent : (top + 2) * 2 ^ f.fractionBits ≤
          shift * 2 ^ f.fractionBits + 2 ^ f.fractionBits := by
        rw [← Nat.succ_mul]
        exact Nat.mul_le_mul_right _ (by omega)
      exact ⟨fun _ => overflow_le_of_le_div hgt hn, fun _ => by omega⟩

/-! ### Decimals -/

theorem overflow_le_div_iff (f : BinaryFormat) {num den : Nat} (hden : 0 < den) :
    f.overflow ≤ (num : ℚ) / den ↔
      den * (f.units (f.infinity - 1) + f.units f.infinity) ≤ 2 * (num * 2 ^ f.unitScale) := by
  have hden' : (0 : ℚ) < den := Nat.cast_pos.mpr hden
  rw [overflow, div_div, div_le_div_iff₀ (by positivity) hden']
  rw [← Nat.cast_le (α := ℚ)]
  push_cast
  constructor <;> intro h <;> linarith

theorem mul_zpow_eq_div (digits : Nat) (e : Int) :
    (digits : ℚ) * 10 ^ e =
      ((digits * 10 ^ e.toNat : Nat) : ℚ) / ((10 ^ (-e).toNat : Nat) : ℚ) := by
  push_cast
  rcases Int.le_total 0 e with he | he
  · obtain ⟨n, rfl⟩ := Int.eq_ofNat_of_zero_le he
    simp
  · obtain ⟨n, hn⟩ := Int.eq_ofNat_of_zero_le (Int.neg_nonneg_of_nonpos he)
    obtain rfl : e = -n := by omega
    simp [zpow_neg, div_eq_mul_inv]

theorem lt_pow_length_toDigits (n : Nat) : n < 10 ^ (Nat.toDigits 10 n).length :=
  (Nat.length_toDigits_le_iff (by omega) Nat.length_toDigits_pos).mp (Nat.le_refl _)

theorem Regular.units_infinity_pos (h : f.Regular) : 0 < f.units f.infinity := by
  obtain ⟨top, -, -, hinfinity⟩ := h.exists_infinity
  have hpos : 0 < f.infinity := by
    rw [hinfinity]
    exact Nat.mul_pos (by omega) (Nat.two_pow_pos _)
  have hlt := f.units_strictMono hpos
  rwa [f.units_zero] at hlt

theorem Regular.overflow_of_unitScale_lt (h : f.Regular) {digits : Nat} (hdigits : digits ≠ 0)
    {e : Int} (he : (f.unitScale : Int) < e) :
    10 ^ (-e).toNat * (f.units (f.infinity - 1) + f.units f.infinity) ≤
      2 * (digits * 10 ^ e.toNat * 2 ^ f.unitScale) := by
  obtain ⟨top, htop, hexponent, hinfinity⟩ := h.exists_infinity
  have hnonneg : (-e).toNat = 0 := by omega
  have hscale : f.fractionBits + top + 2 ≤ f.unitScale + 1 + (f.unitScale + 1) := by
    have hpos : 0 < f.exponentBits := Nat.lt_of_lt_of_le (by omega) h.exponent
    have hhalf := Nat.two_pow_pred_mul_two hpos
    have hfraction := h.fraction
    rw [unitScale]
    omega
  have hten : 2 ^ (f.unitScale + 1) ≤ 10 ^ e.toNat :=
    calc 2 ^ (f.unitScale + 1) ≤ 10 ^ (f.unitScale + 1) := Nat.pow_le_pow_left (by omega) _
      _ ≤ 10 ^ e.toNat := Nat.pow_le_pow_right (by omega) (by omega)
  rw [hnonneg, Nat.pow_zero, Nat.one_mul, units_around hinfinity]
  calc (4 * 2 ^ f.fractionBits - 1) * 2 ^ top
      ≤ 4 * 2 ^ f.fractionBits * 2 ^ top := Nat.mul_le_mul_right _ (Nat.sub_le _ _)
    _ = 2 ^ (f.fractionBits + top + 2) := by ring
    _ ≤ 2 ^ (f.unitScale + 1 + (f.unitScale + 1)) := Nat.pow_le_pow_right (by omega) hscale
    _ = 2 * (1 * 2 ^ (f.unitScale + 1) * 2 ^ f.unitScale) := by ring
    _ ≤ 2 * (digits * 10 ^ e.toNat * 2 ^ f.unitScale) := by
      refine Nat.mul_le_mul_left _ (Nat.mul_le_mul_right _ ?_)
      exact Nat.mul_le_mul (Nat.pos_of_ne_zero hdigits) hten

theorem Regular.lt_overflow_of_lt_unitScale (h : f.Regular) {digits : Nat} {e : Int}
    (he : e + (Nat.toDigits 10 digits).length < -(f.unitScale : Int)) :
    2 * (digits * 10 ^ e.toNat * 2 ^ f.unitScale) <
      10 ^ (-e).toNat * (f.units (f.infinity - 1) + f.units f.infinity) := by
  have hnonpos : e.toNat = 0 := by omega
  have hunits := h.units_infinity_pos
  have hscale : (Nat.toDigits 10 digits).length + (f.unitScale + 1) ≤ (-e).toNat := by omega
  rw [hnonpos, Nat.pow_zero, Nat.mul_one]
  calc 2 * (digits * 2 ^ f.unitScale) = digits * 2 ^ (f.unitScale + 1) := by ring
    _ < 10 ^ (Nat.toDigits 10 digits).length * 2 ^ (f.unitScale + 1) :=
      Nat.mul_lt_mul_of_pos_right (lt_pow_length_toDigits digits) (Nat.two_pow_pos _)
    _ ≤ 10 ^ (Nat.toDigits 10 digits).length * 10 ^ (f.unitScale + 1) :=
      Nat.mul_le_mul_left _ (Nat.pow_le_pow_left (by omega) _)
    _ = 10 ^ ((Nat.toDigits 10 digits).length + (f.unitScale + 1)) := (Nat.pow_add ..).symm
    _ ≤ 10 ^ (-e).toNat := Nat.pow_le_pow_right (by omega) hscale
    _ ≤ 10 ^ (-e).toNat * (f.units (f.infinity - 1) + f.units f.infinity) :=
      Nat.le_mul_of_pos_right _ (by omega)

/-- A decimal is rounded to infinity from the point of overflow. -/
theorem Regular.ofDecimal_eq_infinity_iff (h : f.Regular) (digits : Nat) (e : Int) :
    f.ofDecimal digits e = f.infinity ↔ f.overflow ≤ digits * 10 ^ e := by
  have hden : 0 < 10 ^ (-e).toNat := Nat.pow_pos (by omega)
  have hunits := h.units_infinity_pos
  have hfinite : 0 ≠ f.infinity := by
    intro hzero
    rw [← hzero, f.units_zero] at hunits
    exact Nat.lt_irrefl 0 hunits
  rw [mul_zpow_eq_div, f.overflow_le_div_iff hden]
  unfold ofDecimal
  split
  · next hzero =>
    subst hzero
    have hsum : 0 < 10 ^ (-e).toNat * (f.units (f.infinity - 1) + f.units f.infinity) :=
      Nat.mul_pos hden (by omega)
    exact ⟨fun h => (hfinite h).elim, fun _ => by omega⟩
  · next hdigits =>
    split
    · next he => exact ⟨fun _ => h.overflow_of_unitScale_lt hdigits he, fun _ => rfl⟩
    · split
      · next he =>
        have hless := h.lt_overflow_of_lt_unitScale he
        exact ⟨fun h => (hfinite h).elim, fun _ => by omega⟩
      · exact h.nearest_eq_infinity_iff hden

end SchemaWire.BinaryFormat
