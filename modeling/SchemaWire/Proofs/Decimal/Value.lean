import Mathlib.Data.Int.ConditionallyCompleteOrder
import Mathlib.Data.Rat.Cast.Order
import Mathlib.Order.WithBot
import SchemaWire.Proofs.Constraint.Literal
import SchemaWire.Proofs.Decimal.Units

/-!
The number that a bit pattern stands for, on the line of the rationals with an infinity at either
end. Patterns are compared as these numbers are, and a pattern that is converted to a longer format
stands for the same number.
-/

namespace SchemaWire

/-- The line of the rationals with both infinities. -/
abbrev Extended := WithBot (WithTop ℚ)

def Extended.ofRat (q : ℚ) : Extended := ((q : WithTop ℚ) : WithBot (WithTop ℚ))

namespace Extended

theorem ofRat_lt_ofRat {p q : ℚ} : ofRat p < ofRat q ↔ p < q := by
  rw [ofRat, ofRat, WithBot.coe_lt_coe, WithTop.coe_lt_coe]

theorem ofRat_strictMono : StrictMono ofRat := fun _ _ => ofRat_lt_ofRat.mpr

theorem bot_lt_ofRat (q : ℚ) : ⊥ < ofRat q := WithBot.bot_lt_coe _

theorem ofRat_lt_top (q : ℚ) : ofRat q < ⊤ := WithBot.coe_lt_coe.mpr (WithTop.coe_lt_top q)

end Extended

namespace BinaryFormat

variable (f : BinaryFormat)

/-- The number that a bit pattern stands for; none if it stands for none. -/
def value? (bits : Nat) : Option Extended :=
  let amount : ℚ := f.units (f.magnitude bits) / 2 ^ f.unitScale
  if f.isNan bits then none
  else if f.isInfinite bits then some (if f.isNegative bits then ⊥ else ⊤)
  else some (.ofRat (if f.isNegative bits then -amount else amount))

theorem value?_eq_none_iff {bits : Nat} : f.value? bits = none ↔ f.isNan bits = true := by
  unfold value?
  split
  · simp_all
  · split <;> simp_all

theorem isInfinite_iff_value? {bits : Nat} :
    f.isInfinite bits = true ↔ f.value? bits = some ⊥ ∨ f.value? bits = some ⊤ := by
  unfold value?
  split
  · next hnan =>
    rw [isNan, decide_eq_true_eq] at hnan
    simp [isInfinite, Nat.ne_of_gt hnan]
  · split
    · next hinf =>
      simp only [hinf, true_iff]
      split
      · exact .inl rfl
      · exact .inr rfl
    · next hinf =>
      simp only [hinf, Bool.false_eq_true, Option.some.injEq, false_iff, not_or]
      exact ⟨(Extended.bot_lt_ofRat _).ne', (Extended.ofRat_lt_top _).ne⟩

/-! ### Order -/

def unitsAt (place : Int) : Int :=
  if place < 0 then -(f.units place.natAbs : Int) else f.units place.natAbs

theorem unitsAt_strictMono : StrictMono f.unitsAt := by
  have hpos : ∀ {m : Nat}, 0 < m → 0 < f.units m := by
    intro m hm
    have hlt := f.units_strictMono hm
    rwa [f.units_zero] at hlt
  intro a b hab
  unfold unitsAt
  split
  · next ha =>
    split
    · have hlt := f.units_strictMono (a := b.natAbs) (b := a.natAbs) (by omega)
      omega
    · have hlt := hpos (m := a.natAbs) (by omega)
      omega
  · next ha =>
    rw [if_neg (by omega)]
    have hlt := f.units_strictMono (a := a.natAbs) (b := b.natAbs) (by omega)
    omega

/-- The number at a place from minus infinity to infinity. -/
def valueAt (place : Int) : Extended :=
  if place = -f.infinity then ⊥
  else if place = f.infinity then ⊤
  else .ofRat (f.unitsAt place / 2 ^ f.unitScale)

theorem valueAt_strictMonoOn :
    StrictMonoOn f.valueAt (Set.Icc (-(f.infinity : Int)) f.infinity) := by
  intro a ha b hb hab
  obtain ⟨hlow, hhigh⟩ := ha
  obtain ⟨hlow', hhigh'⟩ := hb
  have hb : b ≠ -f.infinity := by omega
  have ha : a ≠ f.infinity := by omega
  rw [valueAt, valueAt, if_neg ha, if_neg hb]
  split
  · split
    · exact bot_lt_top
    · exact Extended.bot_lt_ofRat _
  · split
    · exact Extended.ofRat_lt_top _
    · refine Extended.ofRat_strictMono ?_
      have hunits : (f.unitsAt a : ℚ) < f.unitsAt b := by
        exact_mod_cast f.unitsAt_strictMono hab
      exact div_lt_div_of_pos_right hunits (by positivity)

theorem rank_mem {bits : Nat} (h : f.isNan bits = false) :
    f.rank bits ∈ Set.Icc (-(f.infinity : Int)) f.infinity := by
  rw [isNan, decide_eq_false_iff_not] at h
  unfold rank
  split <;> constructor <;> omega

theorem unitsAt_natCast (m : Nat) : f.unitsAt m = f.units m := by
  rw [unitsAt, if_neg (by omega), Int.natAbs_natCast]

theorem unitsAt_neg_natCast (m : Nat) : f.unitsAt (-m) = -f.units m := by
  rw [unitsAt, Int.natAbs_neg, Int.natAbs_natCast]
  split
  · rfl
  · next hm =>
    obtain rfl : m = 0 := by omega
    simp [f.units_zero]

theorem value?_eq_valueAt (hpos : 0 < f.infinity) {bits : Nat} (h : f.isNan bits = false) :
    f.value? bits = some (f.valueAt (f.rank bits)) := by
  have hle : f.magnitude bits ≤ f.infinity := by
    rw [isNan, decide_eq_false_iff_not] at h
    omega
  rw [value?, h, if_neg Bool.false_ne_true, rank]
  rcases Nat.eq_or_lt_of_le hle with hinf | hlt
  · have hinfinite : f.isInfinite bits = true := decide_eq_true hinf
    rw [if_pos hinfinite, hinf]
    cases f.isNegative bits with
    | true => rw [if_pos rfl, if_pos rfl, valueAt, if_pos rfl]
    | false =>
        rw [if_neg Bool.false_ne_true, if_neg Bool.false_ne_true, valueAt, if_neg (by omega),
          if_pos rfl]
  · rw [isInfinite, decide_eq_false (Nat.ne_of_lt hlt), if_neg Bool.false_ne_true]
    cases f.isNegative bits with
    | true =>
        rw [if_pos rfl, if_pos rfl, valueAt, if_neg (by omega), if_neg (by omega),
          f.unitsAt_neg_natCast]
        push_cast
        rw [neg_div]
    | false =>
        rw [if_neg Bool.false_ne_true, if_neg Bool.false_ne_true, valueAt, if_neg (by omega),
          if_neg (by omega), f.unitsAt_natCast]
        rfl

/-- Patterns are compared as the numbers that they stand for. -/
theorem order?_eq_cmp (hpos : 0 < f.infinity) {a b : Nat} {x y : Extended}
    (ha : f.value? a = some x) (hb : f.value? b = some y) : f.order? a b = some (cmp x y) := by
  have hnan : ∀ {bits z}, f.value? bits = some z → f.isNan bits = false := by
    intro bits z hz
    rw [Bool.eq_false_iff, ne_eq, ← f.value?_eq_none_iff, hz]
    nofun
  have ha' := hnan ha
  have hb' := hnan hb
  rw [f.value?_eq_valueAt hpos ha', Option.some.injEq] at ha
  rw [f.value?_eq_valueAt hpos hb', Option.some.injEq] at hb
  subst ha hb
  rw [order?, ha', hb', f.valueAt_strictMonoOn.cmp_map_eq (f.rank_mem ha') (f.rank_mem hb'),
    cmp_eq_compare]
  rfl

/-! ### Conversion -/

theorem magnitude_withSign {negative : Bool} {m : Nat} (h : m < f.signWeight) :
    f.magnitude (f.withSign negative m) = m := by
  cases negative with
  | true => rw [withSign, if_pos rfl, magnitude, Nat.add_mod_left, Nat.mod_eq_of_lt h]
  | false => rw [withSign, if_neg Bool.false_ne_true, magnitude, Nat.mod_eq_of_lt h]

theorem isNegative_withSign {negative : Bool} {m : Nat} (h : m < f.signWeight) :
    f.isNegative (f.withSign negative m) = negative := by
  cases negative with
  | true => exact decide_eq_true (Nat.le_add_right _ _)
  | false => exact decide_eq_false (Nat.not_le.mpr h)

theorem withSign_isNegative_magnitude {bits : Nat} (h : bits < 2 * f.signWeight) :
    f.withSign (f.isNegative bits) (f.magnitude bits) = bits := by
  rw [withSign, magnitude]
  split
  · next hnegative =>
    rw [isNegative, decide_eq_true_eq] at hnegative
    rw [Nat.mod_eq_sub_mod hnegative, Nat.mod_eq_of_lt (by omega), Nat.add_sub_cancel' hnegative]
  · next hpositive =>
    rw [isNegative, decide_eq_true_eq] at hpositive
    exact Nat.mod_eq_of_lt (Nat.lt_of_not_le hpositive)

theorem value?_withSign {negative : Bool} {m : Nat} (h : m < f.signWeight) :
    f.value? (f.withSign negative m) =
      if f.infinity < m then none
      else if m = f.infinity then some (if negative then ⊥ else ⊤)
      else some (.ofRat (if negative then -(f.units m / 2 ^ f.unitScale)
        else f.units m / 2 ^ f.unitScale)) := by
  simp only [value?, isNan, isInfinite, f.magnitude_withSign h, f.isNegative_withSign h,
    decide_eq_true_eq]

theorem convert_lt (g : BinaryFormat) (hquiet : 0 < g.fractionBits) (bits : Nat) :
    f.convert g bits < 2 * g.signWeight := by
  apply g.withSign_lt
  split
  · exact g.nan_lt_signWeight hquiet
  · split
    · exact g.infinity_lt_signWeight
    · exact Nat.lt_of_le_of_lt (g.nearest_le_infinity _ _) g.infinity_lt_signWeight

/-- The longer format holds every number of the shorter one. -/
structure Widens (f g : BinaryFormat) : Prop where
  fraction : f.fractionBits ≤ g.fractionBits
  quiet : 0 < g.fractionBits
  scale : f.unitScale ≤ g.unitScale
  range : f.units f.infinity * 2 ^ (g.unitScale - f.unitScale) ≤ g.units g.infinity

theorem single_widens_double : Widens single double where
  fraction := by decide
  quiet := by decide
  scale := by decide
  range := by decide +kernel

variable {f} {g : BinaryFormat}

theorem Widens.exists_nearest (h : f.Widens g) {m : Nat} (hm : m < f.infinity) :
    ∃ m' < g.infinity, g.nearest (f.units m) (2 ^ f.unitScale) = m' ∧
      (g.units m' : ℚ) / 2 ^ g.unitScale = f.units m / 2 ^ f.unitScale := by
  obtain ⟨s, j, hs, hunits⟩ := f.units_eq_mul m
  have hs' : s < 2 ^ (g.fractionBits + 1) :=
    Nat.lt_of_lt_of_le hs (Nat.pow_le_pow_right (by omega) (Nat.succ_le_succ h.fraction))
  obtain ⟨m', hm'⟩ := g.exists_units hs' (j + (g.unitScale - f.unitScale))
  have hscaled : g.units m' = f.units m * 2 ^ (g.unitScale - f.unitScale) := by
    rw [hm', hunits, Nat.pow_add, Nat.mul_assoc]
  have hfinite : m' < g.infinity := by
    rw [← g.units_strictMono.lt_iff_lt, hscaled]
    exact Nat.lt_of_lt_of_le
      (Nat.mul_lt_mul_of_pos_right (f.units_strictMono hm) (Nat.two_pow_pos _)) h.range
  have hpow : 2 ^ g.unitScale = 2 ^ f.unitScale * 2 ^ (g.unitScale - f.unitScale) := by
    rw [← Nat.pow_add, Nat.add_sub_cancel' h.scale]
  refine ⟨m', hfinite, ?_, ?_⟩
  · refine g.nearest_of_units (Nat.two_pow_pos _) (Nat.le_of_lt hfinite) ?_
    rw [hscaled, hpow]
    ring
  · have hpow : (2 : ℚ) ^ g.unitScale = 2 ^ f.unitScale * 2 ^ (g.unitScale - f.unitScale) := by
      exact_mod_cast hpow
    rw [hscaled, hpow]
    push_cast
    rw [mul_div_mul_right _ _ (by positivity)]

/-- Converting a pattern to a longer format does not change what it stands for. -/
theorem Widens.value?_convert (h : f.Widens g) (bits : Nat) :
    g.value? (f.convert g bits) = f.value? bits := by
  have hinfinity : g.infinity < g.signWeight := g.infinity_lt_signWeight
  rw [convert]
  by_cases hnan : f.isNan bits = true
  · have hquiet : g.infinity < g.nan := Nat.lt_add_of_pos_right (Nat.two_pow_pos _)
    rw [if_pos hnan, g.value?_withSign (g.nan_lt_signWeight h.quiet), if_pos hquiet, eq_comm,
      f.value?_eq_none_iff]
    exact hnan
  · rw [if_neg hnan]
    by_cases hinf : f.magnitude bits = f.infinity
    · have hinfinite : f.isInfinite bits = true := decide_eq_true hinf
      rw [if_pos hinf, g.value?_withSign hinfinity, if_neg (Nat.lt_irrefl _), if_pos rfl, value?,
        if_neg hnan, if_pos hinfinite]
    · have hfinite : f.magnitude bits < f.infinity := by
        rw [isNan, decide_eq_true_eq] at hnan
        omega
      have hnot : ¬ f.isInfinite bits = true := fun h => hinf (of_decide_eq_true h)
      obtain ⟨m', hm', hnearest, hsame⟩ := h.exists_nearest hfinite
      rw [if_neg hinf, hnearest, g.value?_withSign (Nat.lt_trans hm' hinfinity),
        if_neg (Nat.lt_asymm hm'), if_neg (Nat.ne_of_lt hm'), hsame, value?, if_neg hnan,
        if_neg hnot]

/-- A finite pattern that was converted to a longer format is restored by converting it back. -/
theorem Widens.convert_convert (h : f.Widens g) {bits : Nat} (hbits : bits < 2 * f.signWeight)
    (hfinite : f.magnitude bits < f.infinity) : g.convert f (f.convert g bits) = bits := by
  obtain ⟨m, hm, hnearest, hsame⟩ := h.exists_nearest hfinite
  have hweight : m < g.signWeight := Nat.lt_trans hm g.infinity_lt_signWeight
  have hnan : ¬ f.isNan bits = true := by
    rw [isNan, decide_eq_true_eq]
    omega
  have hwide : f.convert g bits = g.withSign (f.isNegative bits) m := by
    rw [convert, if_neg hnan, if_neg (Nat.ne_of_lt hfinite), hnearest]
  have hnanWide : ¬ g.isNan (g.withSign (f.isNegative bits) m) = true := by
    rw [isNan, g.magnitude_withSign hweight, decide_eq_true_eq]
    omega
  have hback : f.nearest (g.units m) (2 ^ g.unitScale) = f.magnitude bits := by
    refine f.nearest_of_units (Nat.two_pow_pos _) (Nat.le_of_lt hfinite) ?_
    rw [div_eq_div_iff (by positivity) (by positivity)] at hsame
    rw [Nat.mul_comm (2 ^ g.unitScale)]
    exact_mod_cast hsame
  rw [hwide, convert, if_neg hnanWide, g.magnitude_withSign hweight, g.isNegative_withSign hweight,
    if_neg (Nat.ne_of_lt hm), hback, f.withSign_isNegative_magnitude hbits]

end BinaryFormat

end SchemaWire
