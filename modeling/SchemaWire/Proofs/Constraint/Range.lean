import SchemaWire.Proofs.Decimal.Grammar
import SchemaWire.Proofs.Decimal.Overflow
import SchemaWire.Proofs.Scalar.Order

/-!
Which texts are literals of a numeric kind, and of which value. For a whole kind they are the
numerals in its range. For a floating-point kind they are all real texts, except that a short float
refuses a decimal which only the long format can hold; a decimal that not even the long format can
hold becomes infinity, for either kind.
-/

namespace SchemaWire

namespace RealText

def SpellsInfinity (cs : List Char) : Prop := ∃ negative, IsSigned negative IsInfinity cs

def SpellsNan (cs : List Char) : Prop := ∃ negative, IsSigned negative IsNan cs

/-- The text writes a decimal, with a sign or without, that is too great for the format. -/
def Overflows (f : BinaryFormat) (cs : List Char) : Prop :=
  ∃ negative digits exponent, IsSigned negative (IsDecimal · digits exponent) cs ∧
    f.overflow ≤ digits * 10 ^ exponent

def IsReal (cs : List Char) : Prop :=
  (∃ negative digits exponent, IsSigned negative (IsDecimal · digits exponent) cs) ∨
    SpellsInfinity cs ∨ SpellsNan cs

theorem isSome_read?_iff {cs : List Char} : (read? cs).isSome = true ↔ IsReal cs := by
  unfold IsReal SpellsInfinity SpellsNan
  simp only [← read?_eq_finite, ← read?_eq_infinite, ← read?_eq_nan]
  cases read? cs with
  | none => simp
  | some result =>
      obtain ⟨negative, value⟩ := result
      cases value <;> simp

end RealText

open RealText

theorem NumKind.format_regular (k : NumKind) : k.format.Regular := by
  unfold format
  split
  · exact BinaryFormat.single_regular
  · exact BinaryFormat.double_regular

namespace BinaryFormat

variable {f : BinaryFormat} {cs : List Char} {bits : Nat}

theorem Regular.isInfinite_of_read? (hf : f.Regular) (h : f.read? cs = some bits) :
    f.isInfinite bits = true ↔ SpellsInfinity cs ∨ Overflows f cs := by
  unfold SpellsInfinity Overflows
  simp only [← read?_eq_finite, ← read?_eq_infinite]
  rw [read?, Option.map_eq_some_iff] at h
  obtain ⟨⟨negative, value⟩, hvalue, rfl⟩ := h
  rw [hvalue, isInfinite, decide_eq_true_eq]
  cases value with
  | finite digits e =>
      have hlt : f.ofDecimal digits e < f.signWeight :=
        Nat.lt_of_le_of_lt (f.ofDecimal_le_infinity digits e) f.infinity_lt_signWeight
      rw [f.magnitude_withSign hlt, hf.ofDecimal_eq_infinity_iff]
      simp
  | infinite =>
      rw [f.magnitude_withSign f.infinity_lt_signWeight]
      simp
  | nan =>
      have hquiet : f.infinity < f.nan := Nat.lt_add_of_pos_right (Nat.two_pow_pos _)
      rw [f.magnitude_withSign (f.nan_lt_signWeight hf.fraction)]
      simp [Nat.ne_of_gt hquiet]

theorem Regular.isNan_of_read? (hf : f.Regular) (h : f.read? cs = some bits) :
    f.isNan bits = true ↔ SpellsNan cs := by
  unfold SpellsNan
  simp only [← read?_eq_nan]
  rw [read?, Option.map_eq_some_iff] at h
  obtain ⟨⟨negative, value⟩, hvalue, rfl⟩ := h
  rw [hvalue, isNan, decide_eq_true_eq]
  cases value with
  | finite digits e =>
      have hle := f.ofDecimal_le_infinity digits e
      rw [f.magnitude_withSign (Nat.lt_of_le_of_lt hle f.infinity_lt_signWeight)]
      simp [Nat.not_lt.mpr hle]
  | infinite =>
      rw [f.magnitude_withSign f.infinity_lt_signWeight]
      simp
  | nan =>
      have hquiet : f.infinity < f.nan := Nat.lt_add_of_pos_right (Nat.two_pow_pos _)
      rw [f.magnitude_withSign (f.nan_lt_signWeight hf.fraction)]
      simp [hquiet]

theorem isNan_eq_false_of_isInfinite (h : f.isInfinite bits = true) : f.isNan bits = false := by
  rw [isInfinite, decide_eq_true_eq] at h
  rw [isNan, h, decide_eq_false (Nat.lt_irrefl _)]

theorem exists_read?_iff : (∃ bits, f.read? cs = some bits) ↔ IsReal cs := by
  rw [← isSome_read?_iff, ← Option.isSome_iff_exists, read?, Option.isSome_map]

theorem overflows_single_of_double (h : Overflows .double cs) : Overflows .single cs := by
  obtain ⟨negative, digits, exponent, hdecimal, hle⟩ := h
  have hshort : single.overflow ≤ double.overflow := by decide +kernel
  exact ⟨negative, digits, exponent, hdecimal, hshort.trans hle⟩

theorem overflows_format_of_double {k : NumKind} (h : Overflows .double cs) :
    Overflows k.format cs := by
  unfold NumKind.format
  split
  · exact overflows_single_of_double h
  · exact h

theorem not_spellsInfinity_of_overflows (h : Overflows f cs) : ¬ SpellsInfinity cs := by
  obtain ⟨negative, digits, exponent, hdecimal, -⟩ := h
  rintro ⟨negative', hword⟩
  rw [← read?_eq_finite] at hdecimal
  rw [← read?_eq_infinite, hdecimal] at hword
  cases hword

theorem isInfinite_single_only_iff {x wide : Nat} (hx : single.read? cs = some x)
    (hwide : double.read? cs = some wide) :
    single.isInfinite x = true ∧ double.isInfinite wide = false ↔
      ¬ (Overflows .single cs → Overflows .double cs) := by
  rw [← Bool.not_eq_true, single_regular.isInfinite_of_read? hx,
    double_regular.isInfinite_of_read? hwide, Classical.not_imp, not_or]
  constructor
  · rintro ⟨hshort, hword, hlong⟩
    exact ⟨hshort.resolve_left hword, hlong⟩
  · rintro ⟨hshort, hlong⟩
    exact ⟨.inr hshort, not_spellsInfinity_of_overflows hshort, hlong⟩

end BinaryFormat

namespace Literal

open BinaryFormat

variable {k : NumKind} {cs : List Char} {p : BitVec 64}

theorem float?_double_eq_some :
    float? .double cs = some p ↔
      ∃ bits, double.read? cs = some bits ∧ BitVec.ofNat 64 bits = p := by
  rw [← Option.map_eq_some_iff]
  unfold float?
  cases double.read? cs <;> rfl

/-- A short float is refused if it overflows and the long one does not. -/
theorem float?_single_eq_some :
    float? .single cs = some p ↔ (Overflows .single cs → Overflows .double cs) ∧
      ∃ bits, single.read? cs = some bits ∧ BitVec.ofNat 64 (single.convert .double bits) = p := by
  unfold float?
  split
  · next x wide hx hwide =>
    have hnumber : single.isInfinite x = true → double.isNan wide = false := by
      intro hinfinite
      rw [Bool.eq_false_iff, ne_eq, double_regular.isNan_of_read? hwide,
        ← single_regular.isNan_of_read? hx, isNan_eq_false_of_isInfinite hinfinite]
      exact Bool.false_ne_true
    have hrefused : (single.isInfinite x && !double.isInfinite wide && !double.isNan wide) = true ↔
        ¬ (Overflows .single cs → Overflows .double cs) := by
      rw [← isInfinite_single_only_iff hx hwide, Bool.and_eq_true, Bool.and_eq_true,
        Bool.not_eq_true', Bool.not_eq_true']
      exact ⟨And.left, fun h => ⟨h, hnumber h.1⟩⟩
    rw [if_neg (by decide)]
    split
    · next h =>
      exact ⟨nofun, fun haccepted => (hrefused.mp h haccepted.1).elim⟩
    · next h =>
      have haccepted := not_not.mp (mt hrefused.mpr h)
      rw [and_iff_right haccepted]
      simp [hx]
  · next hno =>
    constructor
    · nofun
    · rintro ⟨-, bits, hbits, -⟩
      obtain ⟨wide, hwide⟩ := exists_read?_iff.mpr (exists_read?_iff.mp ⟨bits, hbits⟩)
      exact (hno bits wide hbits hwide).elim

theorem exists_word_of_read? (hsort : k.sort = .float) {bits : Nat}
    (h : k.format.read? cs = some bits) : ∃ word : BitVec k.bits, bits = word.toNat := by
  have hlt := k.format.read?_lt k.format_regular.fraction h
  have hweight : 2 * k.format.signWeight = 2 ^ k.bits := by
    cases k with
    | float32 | float64 => decide +kernel
    | _ => cases hsort
  rw [hweight] at hlt
  exact ⟨BitVec.ofNat _ bits, by rw [BitVec.toNat_ofNat, Nat.mod_eq_of_lt hlt]⟩

theorem exists_read?_iff_exists_word (hsort : k.sort = .float) {P : Nat → Prop} :
    (∃ bits, k.format.read? cs = some bits ∧ P bits) ↔
      ∃ word : BitVec k.bits, k.format.read? cs = some word.toNat ∧ P word.toNat := by
  constructor
  · rintro ⟨bits, hread, hbits⟩
    obtain ⟨word, rfl⟩ := exists_word_of_read? hsort hread
    exact ⟨word, hread, hbits⟩
  · rintro ⟨word, hread, hword⟩
    exact ⟨word.toNat, hread, hword⟩

theorem exists_number_eq_float (hsort : k.sort = .float) (word : BitVec k.bits) :
    ∃ p, Num.number ⟨k, word⟩ = .float p := by
  simp only [Num.number, hsort]
  exact ⟨_, rfl⟩

/-- A floating-point literal is the number that its text is read as in the format of its kind. -/
theorem float?_eq_some (hsort : k.sort = .float) :
    float? k.format cs = some p ↔ (Overflows k.format cs → Overflows .double cs) ∧
      ∃ word : BitVec k.bits, k.format.read? cs = some word.toNat ∧
        Num.number ⟨k, word⟩ = .float p := by
  cases k with
  | float64 =>
      simp only [Num.number_float64, Number.float.injEq]
      exact (float?_double_eq_some.trans (exists_read?_iff_exists_word hsort)).trans
        (and_iff_right id).symm
  | float32 =>
      simp only [Num.number_float32, Number.float.injEq]
      exact float?_single_eq_some.trans
        (and_congr_right fun _ => exists_read?_iff_exists_word hsort)
  | _ => cases hsort

theorem parse?_signed_eq_some (hsort : k.sort = .signed) {raw : String} {l : Literal} :
    parse? (.num k) raw = some l ↔ ∃ n : Int, l = .signed n ∧ Text.IsInteger raw.toList n ∧
      -(2 ^ (k.bits - 1)) ≤ n ∧ n < 2 ^ (k.bits - 1) := by
  simp only [parse?, hsort, Option.map_eq_some_iff, Option.filter_eq_some_iff, fitsSigned,
    Bool.and_eq_true, decide_eq_true_eq, Text.integer?_eq_some]
  constructor
  · rintro ⟨n, ⟨htext, hrange⟩, rfl⟩
    exact ⟨n, rfl, htext, hrange⟩
  · rintro ⟨n, rfl, htext, hrange⟩
    exact ⟨n, ⟨htext, hrange⟩, rfl⟩

theorem parse?_unsigned_eq_some (hsort : k.sort = .unsigned) {raw : String} {l : Literal} :
    parse? (.num k) raw = some l ↔
      ∃ n : Nat, l = .unsigned n ∧ Text.IsNatural raw.toList n ∧ n < 2 ^ k.bits := by
  simp only [parse?, hsort, Option.map_eq_some_iff, Option.filter_eq_some_iff, fitsUnsigned,
    decide_eq_true_eq, Text.natural?_eq_some]
  constructor
  · rintro ⟨n, ⟨htext, hrange⟩, rfl⟩
    exact ⟨n, rfl, htext, hrange⟩
  · rintro ⟨n, rfl, htext, hrange⟩
    exact ⟨n, ⟨htext, hrange⟩, rfl⟩

theorem parse?_float_eq_some (hsort : k.sort = .float) {raw : String} {l : Literal} :
    parse? (.num k) raw = some l ↔
      (Overflows k.format raw.toList → Overflows .double raw.toList) ∧
        ∃ word : BitVec k.bits, k.format.read? raw.toList = some word.toNat ∧
          l.number? = some (Num.number ⟨k, word⟩) := by
  simp only [parse?, hsort, Option.map_eq_some_iff, float?_eq_some hsort]
  constructor
  · rintro ⟨p, ⟨haccepted, word, hread, hp⟩, rfl⟩
    exact ⟨haccepted, word, hread, by rw [hp, number?]⟩
  · rintro ⟨haccepted, word, hread, hl⟩
    obtain ⟨p, hp⟩ := exists_number_eq_float hsort word
    rw [hp] at hl
    cases l with
    | float q =>
        obtain rfl : q = p := Number.float.inj (Option.some.inj hl)
        exact ⟨q, ⟨haccepted, word, hread, hp⟩, rfl⟩
    | signed | unsigned => cases hl
    | text | flag => cases hl

theorem value?_of_number? (hsort : k.sort = .float) {l : Literal} {word : BitVec k.bits}
    (h : l.number? = some (Num.number ⟨k, word⟩)) : l.value? = k.format.value? word.toNat := by
  rw [value?, h, Option.bind_some, Num.value?_number]
  simp only [Num.value?, hsort]

theorem isSome_parse?_float_iff (hsort : k.sort = .float) {raw : String} :
    (parse? (.num k) raw).isSome = true ↔
      IsReal raw.toList ∧ (Overflows k.format raw.toList → Overflows .double raw.toList) := by
  rw [← exists_read?_iff (f := k.format)]
  constructor
  · intro h
    obtain ⟨l, hl⟩ := Option.isSome_iff_exists.mp h
    obtain ⟨haccepted, word, hread, -⟩ := (parse?_float_eq_some hsort).mp hl
    exact ⟨⟨word.toNat, hread⟩, haccepted⟩
  · rintro ⟨⟨bits, hread⟩, haccepted⟩
    obtain ⟨word, rfl⟩ := exists_word_of_read? hsort hread
    obtain ⟨p, hp⟩ := exists_number_eq_float hsort word
    have hl : (Literal.float p).number? = some (Num.number ⟨k, word⟩) := by rw [hp, number?]
    rw [(parse?_float_eq_some hsort).mpr ⟨haccepted, word, hread, hl⟩, Option.isSome_some]

theorem value?_of_parse? (hsort : k.sort = .float) {raw : String} {l : Literal}
    (h : parse? (.num k) raw = some l) :
    (l.value? = none ↔ SpellsNan raw.toList) ∧
      ((l.value? = some ⊥ ∨ l.value? = some ⊤) ↔
        SpellsInfinity raw.toList ∨ Overflows .double raw.toList) := by
  obtain ⟨haccepted, word, hread, hl⟩ := (parse?_float_eq_some hsort).mp h
  have hregular := k.format_regular
  rw [value?_of_number? hsort hl, ← isInfinite_iff_value?, value?_eq_none_iff,
    hregular.isNan_of_read? hread, hregular.isInfinite_of_read? hread]
  exact ⟨Iff.rfl, or_congr_right ⟨haccepted, overflows_format_of_double⟩⟩

/-- The texts that are literals of a numeric kind. For a signed or an unsigned kind they are the
numerals, with the signs that the kind has, of the numbers in its range. For a floating-point kind
they are the decimals and the words, except that a decimal may overflow the format of the kind only
if it overflows the long format as well; the literal is then infinite. -/
theorem parse?_num_iff (k : NumKind) (raw : String) :
    (k.sort = .signed → ∀ l, parse? (.num k) raw = some l ↔
      ∃ n : Int, l = .signed n ∧ Text.IsInteger raw.toList n ∧
        -(2 ^ (k.bits - 1)) ≤ n ∧ n < 2 ^ (k.bits - 1)) ∧
    (k.sort = .unsigned → ∀ l, parse? (.num k) raw = some l ↔
      ∃ n : Nat, l = .unsigned n ∧ Text.IsNatural raw.toList n ∧ n < 2 ^ k.bits) ∧
    (k.sort = .float →
      ((parse? (.num k) raw).isSome = true ↔
        IsReal raw.toList ∧ (Overflows k.format raw.toList → Overflows .double raw.toList)) ∧
      ∀ l, parse? (.num k) raw = some l →
        (∃ word : BitVec k.bits, k.format.read? raw.toList = some word.toNat ∧
          l.number? = some (Num.number ⟨k, word⟩)) ∧
        (l.value? = none ↔ SpellsNan raw.toList) ∧
        ((l.value? = some ⊥ ∨ l.value? = some ⊤) ↔
          SpellsInfinity raw.toList ∨ Overflows .double raw.toList)) := by
  refine ⟨fun hsort l => parse?_signed_eq_some hsort, fun hsort l => parse?_unsigned_eq_some hsort,
    fun hsort => ⟨isSome_parse?_float_iff hsort, fun l hl => ?_⟩⟩
  exact ⟨((parse?_float_eq_some hsort).mp hl).2, value?_of_parse? hsort hl⟩

/-- The least signed byte, the greatest unsigned one with a plus sign, and a short infinity. -/
theorem parse?_num_extremes :
    (∃ n : Int, Literal.signed (-128) = .signed n ∧ Text.IsInteger "-128".toList n ∧
      -(2 ^ (NumKind.int8.bits - 1)) ≤ n ∧ n < 2 ^ (NumKind.int8.bits - 1)) ∧
    (∃ n : Nat, Literal.unsigned 255 = .unsigned n ∧ Text.IsNatural "+255".toList n ∧
      n < 2 ^ NumKind.uint8.bits) ∧
    (IsReal "inf".toList ∧ (Overflows .single "inf".toList → Overflows .double "inf".toList)) :=
  ⟨((parse?_num_iff .int8 "-128").1 rfl _).mp (by decide +kernel),
    ((parse?_num_iff .uint8 "+255").2.1 rfl _).mp (by decide +kernel),
    ((parse?_num_iff .float32 "inf").2.2 rfl).1.mp (by decide +kernel)⟩

/-- A decimal becomes infinity, for either floating-point kind. -/
theorem parse?_decimal_infinite :
    parse? (.num .float64) "1e400" = some (.float 0x7ff0000000000000) ∧
    parse? (.num .float32) "1e400" = some (.float 0x7ff0000000000000) ∧
    (Literal.float 0x7ff0000000000000).value? = some ⊤ ∧
    IsSigned false (IsDecimal · 1 400) "1e400".toList ∧ ¬ SpellsInfinity "1e400".toList := by
  have hread : RealText.read? "1e400".toList = some (false, .finite 1 400) := by decide +kernel
  refine ⟨by decide +kernel, by decide +kernel, ?_, read?_eq_finite.mp hread, ?_⟩
  · have hnan : ¬ double.isNan 0x7ff0000000000000 = true := by decide +kernel
    have hinfinite : double.isInfinite 0x7ff0000000000000 = true := by decide +kernel
    have hpositive : ¬ double.isNegative 0x7ff0000000000000 = true := by decide +kernel
    change double.value? 0x7ff0000000000000 = some ⊤
    rw [BinaryFormat.value?, if_neg hnan, if_pos hinfinite, if_neg hpositive]
  · rintro ⟨negative, hword⟩
    rw [← read?_eq_infinite, hread] at hword
    cases hword

end Literal

end SchemaWire
