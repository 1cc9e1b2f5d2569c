import Mathlib.Data.Nat.Digits.Defs
import Mathlib.Tactic.IntervalCases
import Mathlib.Tactic.Ring
import SchemaWire.Decimal.Reading

/-!
What decimal numerals are, and that exactly these are read. A numeral is a row of digits, at least
one, with leading zeros or without; the number is the one that its digits are the decimal digits of.
-/

namespace SchemaWire.Text

/-- The characters are decimal digits, at least one, and these are the digits of the number. -/
def IsNumeral (cs : List Char) (n : Nat) : Prop :=
  ∃ ds : List Nat, ds ≠ [] ∧ (∀ d ∈ ds, d < 10) ∧ cs = ds.map Nat.digitChar ∧
    n = Nat.ofDigits 10 ds.reverse

def IsNatural (cs : List Char) (n : Nat) : Prop :=
  IsNumeral cs n ∨ ∃ rest, cs = '+' :: rest ∧ IsNumeral rest n

def IsInteger (cs : List Char) (n : Int) : Prop :=
  (∃ m : Nat, n = m ∧ IsNatural cs m) ∨
    ∃ rest, ∃ m : Nat, n = -m ∧ cs = '-' :: rest ∧ IsNumeral rest m

theorem digitValue?_eq_some {c : Char} {d : Nat} :
    digitValue? c = some d ↔ d < 10 ∧ c = Nat.digitChar d := by
  constructor
  · intro h
    unfold digitValue? at h
    split at h
    · next hrange =>
      rw [Bool.and_eq_true, decide_eq_true_eq, decide_eq_true_eq] at hrange
      have hlow : 48 ≤ c.toNat := hrange.1
      have hhigh : c.toNat ≤ 57 := hrange.2
      have hd : d = c.toNat - 48 := (Option.some.inj h).symm
      have hlt : d < 10 := by omega
      refine ⟨hlt, Char.toNat_inj.mp ?_⟩
      have hc : c.toNat = 48 + d := by omega
      rw [hc]
      clear hd hc h
      interval_cases d <;> rfl
    · cases h
  · rintro ⟨hd, rfl⟩
    interval_cases d <;> rfl

theorem ofDigits_cons_reverse (before d : Nat) (ds : List Nat) :
    (10 * before + d) * 10 ^ ds.length + Nat.ofDigits 10 ds.reverse =
      before * 10 ^ (d :: ds).length + Nat.ofDigits 10 (d :: ds).reverse := by
  rw [List.reverse_cons, Nat.ofDigits_append, Nat.ofDigits_singleton, List.length_reverse,
    List.length_cons]
  ring

theorem digitsFrom?_eq_some {before : Nat} {cs : List Char} {n : Nat} :
    digitsFrom? before cs = some n ↔ ∃ ds : List Nat, (∀ d ∈ ds, d < 10) ∧
      cs = ds.map Nat.digitChar ∧ n = before * 10 ^ ds.length + Nat.ofDigits 10 ds.reverse := by
  -- By induction on the characters; each one appends a digit to the number.
  induction cs generalizing before with
  | nil =>
      rw [digitsFrom?, Option.some.injEq]
      constructor
      · rintro rfl
        exact ⟨[], by simp, rfl, by simp⟩
      · rintro ⟨ds, -, hcs, rfl⟩
        obtain rfl := List.map_eq_nil_iff.mp hcs.symm
        simp
  | cons c cs ih =>
      rw [digitsFrom?, Option.bind_eq_some_iff]
      constructor
      · rintro ⟨d, hd, hrest⟩
        obtain ⟨hlt, rfl⟩ := digitValue?_eq_some.mp hd
        obtain ⟨ds, hds, rfl, rfl⟩ := ih.mp hrest
        exact ⟨d :: ds, List.forall_mem_cons.mpr ⟨hlt, hds⟩, rfl, ofDigits_cons_reverse before d ds⟩
      · rintro ⟨ds, hds, hcs, rfl⟩
        cases ds with
        | nil => cases hcs
        | cons d ds =>
            obtain ⟨rfl, rfl⟩ := List.cons.inj hcs
            obtain ⟨hlt, hds⟩ := List.forall_mem_cons.mp hds
            refine ⟨d, digitValue?_eq_some.mpr ⟨hlt, rfl⟩, ih.mpr ⟨ds, hds, rfl, ?_⟩⟩
            exact (ofDigits_cons_reverse before d ds).symm

theorem digits?_eq_some {cs : List Char} {n : Nat} : digits? cs = some n ↔ IsNumeral cs n := by
  unfold digits? IsNumeral
  cases cs with
  | nil =>
      rw [List.isEmpty_nil, if_pos rfl]
      constructor
      · nofun
      · rintro ⟨ds, hne, -, hcs, -⟩
        exact (hne (List.map_eq_nil_iff.mp hcs.symm)).elim
  | cons c cs =>
      rw [if_neg (by simp), digitsFrom?_eq_some]
      constructor
      · rintro ⟨ds, hds, hcs, hn⟩
        refine ⟨ds, ?_, hds, hcs, by simpa using hn⟩
        rintro rfl
        cases hcs
      · rintro ⟨ds, -, hds, hcs, hn⟩
        exact ⟨ds, hds, hcs, by simpa using hn⟩

theorem not_isNumeral_cons {c : Char} {cs : List Char} {n : Nat} (hc : digitValue? c = none) :
    ¬ IsNumeral (c :: cs) n := by
  intro h
  rw [← digits?_eq_some, digits?, if_neg (by simp), digitsFrom?, hc] at h
  cases h

theorem natural?_eq_some {cs : List Char} {n : Nat} : natural? cs = some n ↔ IsNatural cs n := by
  unfold natural? IsNatural
  split
  · next rest =>
    rw [digits?_eq_some]
    constructor
    · exact fun h => .inr ⟨rest, rfl, h⟩
    · rintro (h | ⟨_, ⟨⟩, h⟩)
      · exact (not_isNumeral_cons rfl h).elim
      · exact h
  · next hplus =>
    rw [digits?_eq_some]
    constructor
    · exact .inl
    · rintro (h | ⟨rest, rfl, -⟩)
      · exact h
      · exact (hplus rest rfl).elim

theorem integer?_eq_some {cs : List Char} {n : Int} : integer? cs = some n ↔ IsInteger cs n := by
  unfold integer? IsInteger
  split
  · next rest =>
    simp only [Option.map_eq_some_iff, Option.bind_eq_bind, Option.bind_eq_some_iff,
      Option.pure_def, Option.some.injEq, digits?_eq_some]
    constructor
    · rintro ⟨_, ⟨m, hm, rfl⟩, rfl⟩
      exact .inr ⟨rest, m, rfl, rfl, hm⟩
    · rintro (⟨m, -, h | ⟨_, ⟨⟩, -⟩⟩ | ⟨_, m, rfl, ⟨⟩, h⟩)
      · exact (not_isNumeral_cons rfl h).elim
      · exact ⟨m, ⟨m, h, rfl⟩, rfl⟩
  · next hminus =>
    rw [Option.map_eq_some_iff]
    constructor
    · rintro ⟨m, hm, rfl⟩
      exact .inl ⟨m, rfl, natural?_eq_some.mp hm⟩
    · rintro (⟨m, rfl, h⟩ | ⟨rest, -, -, rfl, -⟩)
      · exact ⟨m, natural?_eq_some.mpr h, rfl⟩
      · exact (hminus rest rfl).elim

end SchemaWire.Text
