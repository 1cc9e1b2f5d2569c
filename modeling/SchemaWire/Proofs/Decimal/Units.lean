import Mathlib.Algebra.Order.Field.Rat
import Mathlib.Order.Monotone.Basic
import Mathlib.Tactic.Positivity
import Mathlib.Tactic.Ring
import SchemaWire.Decimal.Format

/-!
Magnitudes and the numbers that they stand for. The units of a format grow with the magnitude, each
step by at least one, and every whole number of units with few enough significant bits is one of
them. A number that a format can hold is therefore rounded to itself, and a shorter format is
widened to a longer one without loss.
-/

namespace SchemaWire.BinaryFormat

variable (f : BinaryFormat)

theorem units_add {e fraction : Nat} (h : fraction < 2 ^ f.fractionBits) :
    f.units (e * 2 ^ f.fractionBits + fraction) =
      if e = 0 then fraction else (2 ^ f.fractionBits + fraction) * 2 ^ (e - 1) := by
  have hpos : 0 < 2 ^ f.fractionBits := Nat.two_pow_pos _
  have hexponent : (e * 2 ^ f.fractionBits + fraction) / 2 ^ f.fractionBits = e := by
    rw [Nat.add_comm, Nat.add_mul_div_right _ _ hpos, Nat.div_eq_of_lt h, Nat.zero_add]
  have hfraction : (e * 2 ^ f.fractionBits + fraction) % 2 ^ f.fractionBits = fraction := by
    rw [Nat.add_comm, Nat.add_mul_mod_self_right, Nat.mod_eq_of_lt h]
  simp only [units, hexponent, hfraction]

theorem exists_fields (m : Nat) :
    ∃ e fraction, fraction < 2 ^ f.fractionBits ∧ m = e * 2 ^ f.fractionBits + fraction :=
  ⟨m / 2 ^ f.fractionBits, m % 2 ^ f.fractionBits, Nat.mod_lt _ (Nat.two_pow_pos _), by
    rw [Nat.mul_comm, Nat.div_add_mod]⟩

theorem units_of_lt {m : Nat} (h : m < 2 ^ (f.fractionBits + 1)) : f.units m = m := by
  obtain ⟨e, fraction, hfraction, rfl⟩ := f.exists_fields m
  rw [Nat.pow_succ] at h
  have he : e < 2 := by
    by_contra hge
    have hle := Nat.mul_le_mul_right (2 ^ f.fractionBits) (Nat.le_of_not_lt hge)
    omega
  rw [f.units_add hfraction]
  obtain rfl | rfl : e = 0 ∨ e = 1 := by omega
  · simp
  · simp

theorem units_zero : f.units 0 = 0 := f.units_of_lt (Nat.two_pow_pos _)

theorem units_lt_succ (m : Nat) : f.units m < f.units (m + 1) := by
  obtain ⟨e, fraction, hfraction, rfl⟩ := f.exists_fields m
  have hpow : 0 < 2 ^ (e - 1) := Nat.two_pow_pos _
  by_cases hcarry : fraction + 1 < 2 ^ f.fractionBits
  · -- The exponent stays.
    rw [Nat.add_assoc, f.units_add hfraction, f.units_add hcarry]
    split
    · omega
    · exact Nat.mul_lt_mul_of_pos_right (by omega) hpow
  · -- The fraction is full, and the next magnitude begins the next exponent.
    have hnext : e * 2 ^ f.fractionBits + fraction + 1 = (e + 1) * 2 ^ f.fractionBits + 0 := by
      rw [Nat.add_mul]
      omega
    rw [hnext, f.units_add hfraction, f.units_add (Nat.two_pow_pos _), if_neg (Nat.succ_ne_zero e)]
    rw [Nat.add_sub_cancel, Nat.add_zero]
    split
    · next he =>
      subst he
      omega
    · next he =>
      have hdouble : 2 ^ e = 2 * 2 ^ (e - 1) := by
        rw [Nat.mul_comm, Nat.two_pow_pred_mul_two (Nat.pos_of_ne_zero he)]
      rw [hdouble, ← Nat.mul_assoc]
      exact Nat.mul_lt_mul_of_pos_right (by omega) hpow

theorem units_strictMono : StrictMono f.units := strictMono_nat_of_lt_succ f.units_lt_succ

theorem exists_units_double (m : Nat) : ∃ m', f.units m' = 2 * f.units m := by
  by_cases hm : m < 2 ^ f.fractionBits
  · have hdouble : 2 * m < 2 ^ (f.fractionBits + 1) := by
      rw [Nat.pow_succ]
      omega
    exact ⟨2 * m, by rw [f.units_of_lt hdouble, f.units_of_lt (by omega)]⟩
  · obtain ⟨e, fraction, hfraction, rfl⟩ := f.exists_fields m
    have he : e ≠ 0 := by
      rintro rfl
      omega
    refine ⟨(e + 1) * 2 ^ f.fractionBits + fraction, ?_⟩
    rw [f.units_add hfraction, f.units_add hfraction, if_neg he, if_neg (Nat.succ_ne_zero e)]
    have hpow : 2 ^ (e + 1 - 1) = 2 * 2 ^ (e - 1) := by
      rw [Nat.mul_comm, Nat.two_pow_pred_mul_two (Nat.pos_of_ne_zero he), Nat.add_sub_cancel]
    rw [hpow]
    ring

/-- Every whole number with as many significant bits as the format has is a number of units. -/
theorem exists_units {s : Nat} (hs : s < 2 ^ (f.fractionBits + 1)) (j : Nat) :
    ∃ m, f.units m = s * 2 ^ j := by
  induction j with
  | zero => exact ⟨s, by rw [f.units_of_lt hs, Nat.pow_zero, Nat.mul_one]⟩
  | succ j ih =>
      obtain ⟨m, hm⟩ := ih
      obtain ⟨m', hm'⟩ := f.exists_units_double m
      exact ⟨m', by rw [hm', hm, Nat.pow_succ]; ring⟩

theorem units_eq_mul (m : Nat) : ∃ s j, s < 2 ^ (f.fractionBits + 1) ∧ f.units m = s * 2 ^ j := by
  obtain ⟨e, fraction, hfraction, rfl⟩ := f.exists_fields m
  rw [f.units_add hfraction, Nat.pow_succ]
  split
  · exact ⟨fraction, 0, by omega, by simp⟩
  · exact ⟨2 ^ f.fractionBits + fraction, e - 1, by omega, rfl⟩

/-! ### Numbers that the format holds -/

theorem roundEven_mul {den : Nat} (hden : 0 < den) (q : Nat) : roundEven (den * q) den = q := by
  rw [roundEven, Nat.mul_div_cancel_left q hden, Nat.mul_mod_right]
  exact if_pos (by omega)

/-- A number that is a magnitude of the format is rounded to it. -/
theorem nearest_of_units {m num den : Nat} (hden : 0 < den) (hm : m ≤ f.infinity)
    (h : num * 2 ^ f.unitScale = den * f.units m) : f.nearest num den = m := by
  rw [nearest, h, Nat.mul_div_cancel_left _ hden]
  by_cases hsmall : m < 2 ^ (f.fractionBits + 1)
  · -- All bits are kept.
    have hlog : (f.units m).log2 ≤ f.fractionBits := by
      rw [f.units_of_lt hsmall]
      by_cases hzero : m = 0
      · simp [hzero]
      · exact Nat.le_of_lt_succ ((Nat.log2_lt hzero).mpr hsmall)
    rw [Nat.sub_eq_zero_of_le hlog, Nat.pow_zero, Nat.mul_one, roundEven_mul hden,
      f.units_of_lt hsmall, Nat.zero_mul, Nat.zero_add, Nat.min_eq_right hm]
  · obtain ⟨e, fraction, hfraction, rfl⟩ := f.exists_fields m
    have he : 2 ≤ e := by
      by_contra hlt
      have hle :=
        Nat.mul_le_mul_right (2 ^ f.fractionBits) (Nat.le_of_lt_succ (Nat.lt_of_not_le hlt))
      rw [Nat.pow_succ] at hsmall
      omega
    have hne : e ≠ 0 := by omega
    have hunits := f.units_add (e := e) hfraction
    rw [if_neg hne] at hunits
    have hlog : (f.units (e * 2 ^ f.fractionBits + fraction)).log2 = f.fractionBits + (e - 1) := by
      have hpow : 0 < 2 ^ (e - 1) := Nat.two_pow_pos _
      rw [hunits, Nat.log2_eq_iff (by positivity), Nat.pow_add, Nat.pow_succ, Nat.pow_add]
      constructor
      · exact Nat.mul_le_mul_right _ (by omega)
      · rw [Nat.mul_right_comm]
        exact Nat.mul_lt_mul_of_pos_right (by omega) hpow
    have hshift : den * ((2 ^ f.fractionBits + fraction) * 2 ^ (e - 1)) =
        den * 2 ^ (e - 1) * (2 ^ f.fractionBits + fraction) := by
      ring
    have hmagnitude : (e - 1) * 2 ^ f.fractionBits + (2 ^ f.fractionBits + fraction) =
        e * 2 ^ f.fractionBits + fraction := by
      rw [← Nat.add_assoc, ← Nat.succ_mul, Nat.succ_eq_add_one, Nat.sub_add_cancel (by omega)]
    rw [hlog, Nat.add_sub_cancel_left, hunits, hshift, roundEven_mul (by positivity), hmagnitude,
      Nat.min_eq_right hm]

end SchemaWire.BinaryFormat
