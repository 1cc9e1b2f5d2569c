import Mathlib.Data.List.TakeDrop
import Mathlib.Data.List.TakeWhile
import SchemaWire.Decimal.Reading
import SchemaWire.Proofs.Decimal.Numeral

/-!
The grammar of decimal texts, and that exactly these are read. A finite decimal is a row of digits
with at most one point among or beside them and perhaps a power of ten; infinity is one of two words
in letters of either case. Either may have a sign in front.
-/

namespace SchemaWire.RealText

open Text

/-- A power of ten at the end of a text: none, or a mark and a whole number. -/
def IsPower (cs : List Char) (e : Int) : Prop :=
  (cs = [] ∧ e = 0) ∨ ∃ mark rest, (mark = 'e' ∨ mark = 'E') ∧ cs = mark :: rest ∧ IsInteger rest e

/-- The text writes `digits * 10 ^ exponent` without a sign: digits before and behind a point, which
may be missing if there are none behind it, and a power of ten. -/
def IsDecimal (cs : List Char) (digits : Nat) (exponent : Int) : Prop :=
  ∃ (whole fraction : List Nat) (point power : List Char) (e : Int),
    whole ++ fraction ≠ [] ∧ (∀ d ∈ whole ++ fraction, d < 10) ∧
    (point = ['.'] ∨ point = [] ∧ fraction = []) ∧ IsPower power e ∧
    cs = whole.map Nat.digitChar ++ (point ++ (fraction.map Nat.digitChar ++ power)) ∧
    digits = Nat.ofDigits 10 (whole ++ fraction).reverse ∧ exponent = e - fraction.length

def IsInfinity (cs : List Char) : Prop :=
  cs.map Char.toLower = "inf".toList ∨ cs.map Char.toLower = "infinity".toList

def IsNan (cs : List Char) : Prop := cs.map Char.toLower = "nan".toList

def IsSigned (negative : Bool) (P : List Char → Prop) (cs : List Char) : Prop :=
  if negative then ∃ rest, cs = '-' :: rest ∧ P rest else P cs ∨ ∃ rest, cs = '+' :: rest ∧ P rest

/-! ### Digits -/

theorem isSome_digitValue? {d : Nat} (hd : d < 10) :
    (digitValue? (Nat.digitChar d)).isSome = true := by
  rw [digitValue?_eq_some.mpr ⟨hd, rfl⟩, Option.isSome_some]

theorem spanDigits_append {ds : List Nat} (hds : ∀ d ∈ ds, d < 10) {rest : List Char}
    (hrest : ∀ c ∈ rest.head?, digitValue? c = none) :
    spanDigits (ds.map Nat.digitChar ++ rest) = (ds.map Nat.digitChar, rest) := by
  have hdigits : ∀ c ∈ ds.map Nat.digitChar, (digitValue? c).isSome = true := by
    intro c hc
    obtain ⟨d, hd, rfl⟩ := List.mem_map.mp hc
    exact isSome_digitValue? (hds d hd)
  rw [spanDigits, List.span_eq_takeWhile_dropWhile, List.takeWhile_append_of_pos hdigits,
    List.dropWhile_append_of_pos hdigits]
  cases rest with
  | nil => simp
  | cons c rest =>
      have hc : ¬ (digitValue? c).isSome = true := by
        rw [hrest c rfl]
        exact Bool.false_ne_true
      simp [hc]

theorem exists_digits {cs : List Char} (h : ∀ c ∈ cs, (digitValue? c).isSome = true) :
    ∃ ds : List Nat, (∀ d ∈ ds, d < 10) ∧ cs = ds.map Nat.digitChar := by
  induction cs with
  | nil => exact ⟨[], by simp, rfl⟩
  | cons c cs ih =>
      obtain ⟨hc, hcs⟩ := List.forall_mem_cons.mp h
      obtain ⟨d, hd⟩ := Option.isSome_iff_exists.mp hc
      obtain ⟨hlt, rfl⟩ := digitValue?_eq_some.mp hd
      obtain ⟨ds, hds, rfl⟩ := ih hcs
      exact ⟨d :: ds, List.forall_mem_cons.mpr ⟨hlt, hds⟩, rfl⟩

theorem exists_digits_append (cs : List Char) :
    ∃ (ds : List Nat) (rest : List Char), (∀ d ∈ ds, d < 10) ∧
      (∀ c ∈ rest.head?, digitValue? c = none) ∧ cs = ds.map Nat.digitChar ++ rest := by
  have hdigits : ∀ c ∈ cs.takeWhile (fun c => (digitValue? c).isSome),
      (digitValue? c).isSome = true :=
    fun c hc => List.mem_takeWhile_imp (p := fun c => (digitValue? c).isSome) hc
  obtain ⟨ds, hds, htake⟩ := exists_digits hdigits
  refine ⟨ds, cs.dropWhile fun c => (digitValue? c).isSome, hds, ?_, ?_⟩
  · intro c hc
    have hnot := List.head?_dropWhile_not (fun c => (digitValue? c).isSome) cs
    rw [hc] at hnot
    simpa using hnot
  · rw [← htake, List.takeWhile_append_dropWhile]

/-! ### Numbers -/

theorem exponent?_eq_some {cs : List Char} {e : Int} : exponent? cs = some e ↔ IsPower cs e := by
  unfold IsPower
  cases cs with
  | nil => simp [exponent?, eq_comm]
  | cons c cs =>
      rw [exponent?]
      split
      · next hmark =>
        rw [integer?_eq_some]
        constructor
        · exact fun h => .inr ⟨c, cs, by simpa using hmark, rfl, h⟩
        · rintro (⟨⟨⟩, -⟩ | ⟨_, _, -, ⟨⟩, h⟩)
          exact h
      · next hmark =>
        constructor
        · nofun
        · rintro (⟨⟨⟩, -⟩ | ⟨_, _, hc, ⟨⟩, -⟩)
          exact (hmark (by simpa using hc)).elim

theorem digits?_map {ds : List Nat} (hne : ds ≠ []) (hds : ∀ d ∈ ds, d < 10) :
    digits? (ds.map Nat.digitChar) = some (Nat.ofDigits 10 ds.reverse) :=
  digits?_eq_some.mpr ⟨ds, hne, hds, rfl, rfl⟩

theorem number?_append {ds fs : List Nat} {point power : List Char}
    (hds : ∀ d ∈ ds, d < 10) (hfs : ∀ d ∈ fs, d < 10)
    (hpoint : point = ['.'] ∨ point = [] ∧ fs = [] ∧ power.head? ≠ some '.')
    (hpower : ∀ c ∈ power.head?, digitValue? c = none) :
    number? (ds.map Nat.digitChar ++ (point ++ (fs.map Nat.digitChar ++ power))) =
      (digits? ((ds ++ fs).map Nat.digitChar)).bind fun digits =>
        (exponent? power).map fun e => .finite digits (e - fs.length) := by
  rcases hpoint with rfl | ⟨rfl, rfl, hdot⟩
  · have hwhole : ∀ c ∈ (['.'] ++ (fs.map Nat.digitChar ++ power)).head?, digitValue? c = none := by
      rintro c ⟨⟩
      rfl
    rw [number?, spanDigits_append hds hwhole]
    simp only [List.cons_append, List.nil_append, spanDigits_append hfs hpower, List.length_map,
      List.map_append]
    cases digits? (ds.map Nat.digitChar ++ fs.map Nat.digitChar) <;> cases exponent? power <;> rfl
  · rw [List.map_nil, List.nil_append, List.nil_append, number?, spanDigits_append hds hpower]
    have hrest : ∀ rest, power = '.' :: rest → False := by
      rintro rest rfl
      exact hdot rfl
    simp only [List.append_nil]
    cases digits? (ds.map Nat.digitChar) <;> cases exponent? power <;> rfl

theorem exists_parts (cs : List Char) :
    ∃ (ds fs : List Nat) (point power : List Char), (∀ d ∈ ds, d < 10) ∧ (∀ d ∈ fs, d < 10) ∧
      (point = ['.'] ∨ point = [] ∧ fs = [] ∧ power.head? ≠ some '.') ∧
      (∀ c ∈ power.head?, digitValue? c = none) ∧
      cs = ds.map Nat.digitChar ++ (point ++ (fs.map Nat.digitChar ++ power)) := by
  obtain ⟨ds, rest, hds, hrest, rfl⟩ := exists_digits_append cs
  by_cases hdot : rest.head? = some '.'
  · obtain ⟨behind, rfl⟩ : ∃ behind, rest = '.' :: behind := by
      cases rest with
      | nil => cases hdot
      | cons c behind =>
          cases hdot
          exact ⟨behind, rfl⟩
    obtain ⟨fs, power, hfs, hpower, rfl⟩ := exists_digits_append behind
    exact ⟨ds, fs, ['.'], power, hds, hfs, .inl rfl, hpower, rfl⟩
  · exact ⟨ds, [], [], rest, hds, by simp, .inr ⟨rfl, rfl, hdot⟩, hrest, rfl⟩

theorem number?_eq_some {cs : List Char} {digits : Nat} {exponent : Int} :
    number? cs = some (.finite digits exponent) ↔ IsDecimal cs digits exponent := by
  constructor
  · intro h
    obtain ⟨ds, fs, point, power, hds, hfs, hpoint, hpower, rfl⟩ := exists_parts cs
    rw [number?_append hds hfs hpoint hpower, Option.bind_eq_some_iff] at h
    obtain ⟨n, hn, h⟩ := h
    obtain ⟨e, he, h⟩ := Option.map_eq_some_iff.mp h
    obtain ⟨rfl, rfl⟩ := RealText.finite.inj h
    have hlt : ∀ d ∈ ds ++ fs, d < 10 := List.forall_mem_append.mpr ⟨hds, hfs⟩
    have hne : ds ++ fs ≠ [] := by
      intro hnil
      rw [hnil] at hn
      cases hn
    have hdigits := digits?_map hne hlt
    refine ⟨ds, fs, point, power, e, hne, hlt, ?_, exponent?_eq_some.mp he, rfl, ?_, rfl⟩
    · exact hpoint.imp_right fun h => ⟨h.1, h.2.1⟩
    · exact Option.some.inj (hn.symm.trans hdigits)
  · rintro ⟨ds, fs, point, power, e, hne, hlt, hpoint, hpower, rfl, rfl, rfl⟩
    obtain ⟨hds, hfs⟩ := List.forall_mem_append.mp hlt
    have hhead : ∀ c ∈ power.head?, digitValue? c = none ∧ c ≠ '.' := by
      rcases hpower with ⟨rfl, -⟩ | ⟨mark, rest, rfl | rfl, rfl, -⟩
      · nofun
      · rintro c ⟨⟩
        exact ⟨rfl, by decide⟩
      · rintro c ⟨⟩
        exact ⟨rfl, by decide⟩
    have hpoint : point = ['.'] ∨ point = [] ∧ fs = [] ∧ power.head? ≠ some '.' :=
      hpoint.imp_right fun h => ⟨h.1, h.2, fun hdot => (hhead '.' hdot).2 rfl⟩
    rw [number?_append hds hfs hpoint fun c hc => (hhead c hc).1, digits?_map hne hlt,
      exponent?_eq_some.mpr hpower]
    rfl

/-! ### Words and signs -/

theorem head_of_isDecimal {c : Char} {cs : List Char} {digits : Nat} {exponent : Int}
    (h : IsDecimal (c :: cs) digits exponent) : c = '.' ∨ (digitValue? c).isSome = true := by
  obtain ⟨whole, fraction, point, power, e, hne, hlt, hpoint, -, hcs, -, -⟩ := h
  cases whole with
  | cons d whole =>
      obtain ⟨rfl, -⟩ := List.cons.inj hcs
      exact .inr (isSome_digitValue? (hlt d List.mem_cons_self))
  | nil =>
      rcases hpoint with rfl | ⟨-, rfl⟩
      · obtain ⟨rfl, -⟩ := List.cons.inj hcs
        exact .inl rfl
      · exact (hne rfl).elim

/-- What begins with another character, in a letter of either case, is no decimal. -/
theorem not_isDecimal_of_toLower {c : Char} {cs word : List Char} {digits : Nat} {exponent : Int}
    (h : cs.map Char.toLower = c :: word) (hpoint : c ≠ '.') (hdigit : digitValue? c = none) :
    ¬ IsDecimal cs digits exponent := by
  intro hdecimal
  cases cs with
  | nil => cases h
  | cons a cs =>
      obtain ⟨rfl, -⟩ := List.cons.inj h
      rcases head_of_isDecimal hdecimal with rfl | ha
      · exact hpoint rfl
      · obtain ⟨d, hd⟩ := Option.isSome_iff_exists.mp ha
        obtain ⟨hlt, rfl⟩ := digitValue?_eq_some.mp hd
        have hsame : (Nat.digitChar d).toLower = Nat.digitChar d := by
          clear hdecimal h hpoint hdigit hd ha
          interval_cases d <;> rfl
        rw [hsame, hd] at hdigit
        cases hdigit

theorem number?_eq_finite {cs : List Char} {value : RealText} (h : number? cs = some value) :
    ∃ digits e, value = .finite digits e := by
  simp only [number?] at h
  split at h
  · exact ⟨_, _, (Option.some.inj h).symm⟩
  · cases h

theorem ofList_eq_iff {cs : List Char} {word : String} :
    String.ofList cs = word ↔ cs = word.toList := by
  rw [← String.toList_inj, String.toList_ofList]

theorem unsigned?_eq_nan {cs : List Char} : unsigned? cs = some .nan ↔ IsNan cs := by
  unfold unsigned? IsNan
  simp only [← ofList_eq_iff]
  split
  · next h => simp [h]
  · next h => simp [h]
  · next h => simp [h]
  · next hnan =>
    constructor
    · intro h
      obtain ⟨digits, e, ⟨⟩⟩ := number?_eq_finite h
    · exact fun h => (hnan h).elim

theorem unsigned?_eq_infinite {cs : List Char} : unsigned? cs = some .infinite ↔ IsInfinity cs := by
  unfold unsigned? IsInfinity
  simp only [← ofList_eq_iff]
  split
  · next h => simp [h]
  · next h => simp [h]
  · next h => simp [h]
  · next hinf hinfinity hnan =>
    constructor
    · intro h
      obtain ⟨digits, e, ⟨⟩⟩ := number?_eq_finite h
    · rintro (h | h)
      · exact (hinf h).elim
      · exact (hinfinity h).elim

theorem unsigned?_eq_finite {cs : List Char} {digits : Nat} {exponent : Int} :
    unsigned? cs = some (.finite digits exponent) ↔ IsDecimal cs digits exponent := by
  have hno : ∀ {word : String} {c : Char} {rest : List Char},
      String.ofList (cs.map Char.toLower) = word → word.toList = c :: rest → c ≠ '.' →
      digitValue? c = none → ¬ IsDecimal cs digits exponent := by
    intro word c rest hword hlist hpoint hdigit
    have hlower : cs.map Char.toLower = c :: rest := by rw [← hlist, ← hword, String.toList_ofList]
    exact not_isDecimal_of_toLower hlower hpoint hdigit
  unfold unsigned?
  split
  · next h => simp [hno h rfl (by decide) rfl]
  · next h => simp [hno h rfl (by decide) rfl]
  · next h => simp [hno h rfl (by decide) rfl]
  · exact number?_eq_some

theorem read?_eq_some {cs : List Char} {negative : Bool} {value : RealText}
    {P : List Char → Prop} (hread : ∀ rest, unsigned? rest = some value ↔ P rest)
    (hminus : ∀ rest, ¬ P ('-' :: rest)) (hplus : ∀ rest, ¬ P ('+' :: rest)) :
    read? cs = some (negative, value) ↔ IsSigned negative P cs := by
  unfold read? IsSigned
  split
  · next rest =>
    cases negative with
    | true =>
        rw [if_pos rfl]
        simp [hread]
    | false =>
        rw [if_neg Bool.false_ne_true]
        simp [hminus]
  · next rest =>
    cases negative with
    | true =>
        rw [if_pos rfl]
        simp
    | false =>
        rw [if_neg Bool.false_ne_true]
        simp [hread, hplus]
  · next hno hno' =>
    cases negative with
    | true =>
        rw [if_pos rfl]
        simp only [Option.map_eq_some_iff, Prod.mk.injEq, Bool.false_eq_true, false_and, and_false,
          exists_false, false_iff]
        rintro ⟨rest, rfl, -⟩
        exact hno rest rfl
    | false =>
        rw [if_neg Bool.false_ne_true]
        simp only [Option.map_eq_some_iff, Prod.mk.injEq, true_and, exists_eq_right, hread]
        constructor
        · exact .inl
        · rintro (h | ⟨rest, rfl, -⟩)
          · exact h
          · exact (hno' rest rfl).elim

theorem read?_eq_infinite {cs : List Char} {negative : Bool} :
    read? cs = some (negative, .infinite) ↔ IsSigned negative IsInfinity cs := by
  refine read?_eq_some (fun _ => unsigned?_eq_infinite) ?_ ?_ <;>
    · rintro rest (h | h) <;> cases h

theorem read?_eq_nan {cs : List Char} {negative : Bool} :
    read? cs = some (negative, .nan) ↔ IsSigned negative IsNan cs := by
  refine read?_eq_some (fun _ => unsigned?_eq_nan) ?_ ?_ <;>
    · intro rest h
      cases h

/-- Exactly the decimals are read as finite numbers. -/
theorem read?_eq_finite {cs : List Char} {negative : Bool} {digits : Nat} {exponent : Int} :
    read? cs = some (negative, .finite digits exponent) ↔
      IsSigned negative (IsDecimal · digits exponent) cs := by
  have hsign : ∀ {c : Char} (rest : List Char), c.toLower = c → c ≠ '.' → digitValue? c = none →
      ¬ IsDecimal (c :: rest) digits exponent := by
    intro c rest hlower hpoint hdigit
    have hcons : (c :: rest).map Char.toLower = c :: rest.map Char.toLower := by
      rw [List.map_cons, hlower]
    exact not_isDecimal_of_toLower hcons hpoint hdigit
  exact read?_eq_some (fun _ => unsigned?_eq_finite) (fun rest => hsign rest rfl (by decide) rfl)
    fun rest => hsign rest rfl (by decide) rfl

end SchemaWire.RealText
