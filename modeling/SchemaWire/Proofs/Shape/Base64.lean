import SchemaWire.Proofs.Shape.Language
import SchemaWire.Shape.Basic

/-!
Texts in base 64. The pattern asks for groups of four digits, the last of which may be completed by
one or two equals signs. Where the groups lie need not be known to tell which texts these are: what
counts is the number of characters, and that equals signs stand at the end only.
-/

namespace SchemaWire

open scoped Computability

/-! ### Runs of characters -/

namespace Pattern

variable {test : Char → Bool} {w : List Char} {n : Nat}

theorem mem_single_pow : w ∈ single test ^ n ↔ w.length = n ∧ ∀ c ∈ w, test c = true := by
  induction n generalizing w with
  | zero => simp +contextual
  | succ n ih =>
      rw [pow_succ', Language.mem_mul]
      constructor
      · rintro ⟨_, ⟨c, rfl, hc⟩, v, hv, rfl⟩
        obtain ⟨hlength, hall⟩ := ih.mp hv
        simpa [hlength, hc] using hall
      · rintro ⟨hlength, hall⟩
        cases w with
        | nil => simp at hlength
        | cons c w =>
            obtain ⟨hc, hrest⟩ := List.forall_mem_cons.mp hall
            exact ⟨[c], ⟨c, rfl, hc⟩, w, ih.mpr ⟨by simpa using hlength, hrest⟩, rfl⟩

theorem mem_groups_mul {k : Nat} {l : Language Char} :
    w ∈ (single test ^ k)∗ * (single test ^ n * l) ↔
      ∃ m, w ∈ single test ^ (k * m + n) * l := by
  simp only [Language.kstar_eq_iSup_pow, ← mul_assoc, Language.iSup_mul, Language.mem_iSup,
    pow_add, pow_mul]

end Pattern

namespace Text

theorem size_utf8Encode_of_ascii {w : List Char} (h : ∀ c ∈ w, c.val ≤ 127) :
    w.utf8Encode.size = w.length := by
  induction w with
  | nil => rfl
  | cons c w ih =>
      obtain ⟨hc, hw⟩ := List.forall_mem_cons.mp h
      have hfirst : [c].utf8Encode.size = 1 := by
        simpa [List.utf8Encode_singleton] using Char.utf8Size_eq_one_iff.mpr hc
      rw [List.utf8Encode_cons, ByteArray.size_append, hfirst, ih hw, List.length_cons,
        Nat.add_comm]

theorem length_utf8_of_ascii {s : String} (h : ∀ c ∈ s.toList, c.val ≤ 127) :
    (utf8 s).length = s.length := by
  rw [length_utf8, String.utf8ByteSize, ← String.length_toList, ← size_utf8Encode_of_ascii h,
    ← String.toByteArray_ofList, String.ofList_toList]

end Text

namespace TextShape

open Pattern (single)

def IsBase64Digit (c : Char) : Prop :=
  'A' ≤ c ∧ c ≤ 'Z' ∨ 'a' ≤ c ∧ c ≤ 'z' ∨ '0' ≤ c ∧ c ≤ '9' ∨ c = '+' ∨ c = '/'

instance : DecidablePred IsBase64Digit := fun _ => inferInstanceAs (Decidable (_ ∨ _))

/-- Digits, and at most two equals signs behind them. -/
def IsPadded (s : String) : Prop :=
  ∃ (digits : List Char) (pad : Nat), s.toList = digits ++ List.replicate pad '=' ∧ pad ≤ 2 ∧
    ∀ c ∈ digits, IsBase64Digit c

def digitLanguage : Language Char := single fun c => decide (IsBase64Digit c)

def signLanguage : Language Char := single fun c => decide (c = '=')

theorem language_base64Digit : base64Digit.language = digitLanguage := by
  have hsets : ∀ c, [between 'A' 'Z', between 'a' 'z', between '0' '9', plain '+', plain '/'].any
      (CharSet.holds c) = decide (IsBase64Digit c) := by
    intro c
    rw [Bool.eq_iff_iff, decide_eq_true_eq, IsBase64Digit]
    simp only [between, plain, CharSet.holds, List.any_cons, List.any_nil, Bool.or_false,
      Bool.or_eq_true, Bool.and_eq_true, decide_eq_true_eq, @eq_comm Char '+', @eq_comm Char '/']
  simp only [base64Digit, Pattern.language, hsets, digitLanguage]

/-- The last group is completed by no equals sign, by one or by two. -/
theorem mem_language_base64Pattern {w : List Char} : w ∈ base64Pattern.language ↔
    ∃ pad ≤ 2, w ∈ (digitLanguage ^ 4)∗ * (digitLanguage ^ (4 - pad) * signLanguage ^ pad) := by
  have hsign : (single fun c => CharSet.holds c (plain '=')) = signLanguage := by
    simp only [plain, CharSet.holds, signLanguage, @eq_comm Char '=']
  have hsum : base64Pattern.language =
      (digitLanguage ^ 4)∗ * (digitLanguage ^ 2 * signLanguage ^ 2) +
      ((digitLanguage ^ 4)∗ * (digitLanguage ^ 3 * signLanguage ^ 1) +
        (digitLanguage ^ 4)∗ * (digitLanguage ^ 4 * signLanguage ^ 0)) := by
    simp only [base64Pattern, oneOf, inOrder, Pattern.language, language_base64Digit, hsign,
      pow_two, pow_one, pow_zero, mul_one, mul_add]
  rw [hsum, Language.mem_add, Language.mem_add]
  constructor
  · rintro (htwo | hone | hnone)
    · exact ⟨2, by omega, htwo⟩
    · exact ⟨1, by omega, hone⟩
    · exact ⟨0, by omega, hnone⟩
  · rintro ⟨pad, hpad, hw⟩
    obtain rfl | rfl | rfl : pad = 2 ∨ pad = 1 ∨ pad = 0 := by omega
    · exact .inl hw
    · exact .inr (.inl hw)
    · exact .inr (.inr hw)

theorem mem_completed {w : List Char} {pad : Nat} (hpad : pad ≤ 4) :
    w ∈ (digitLanguage ^ 4)∗ * (digitLanguage ^ (4 - pad) * signLanguage ^ pad) ↔
      w ≠ [] ∧ 4 ∣ w.length ∧ ∃ digits : List Char,
        w = digits ++ List.replicate pad '=' ∧ ∀ c ∈ digits, IsBase64Digit c := by
  rw [digitLanguage, Pattern.mem_groups_mul]
  simp only [Language.mem_mul, signLanguage, Pattern.mem_single_pow, decide_eq_true_eq]
  constructor
  · rintro ⟨m, digits, ⟨hlength, hdigits⟩, signs, hsigns, rfl⟩
    obtain rfl : signs = List.replicate pad '=' := List.eq_replicate_iff.mpr hsigns
    have htotal : (digits ++ List.replicate pad '=').length = 4 * (m + 1) := by
      rw [List.length_append, List.length_replicate]
      omega
    refine ⟨?_, ⟨m + 1, htotal⟩, digits, rfl, hdigits⟩
    apply List.ne_nil_of_length_pos
    omega
  · rintro ⟨hne, ⟨groups, hlength⟩, digits, rfl, hdigits⟩
    have hpos := List.length_pos_iff.mpr hne
    rw [List.length_append, List.length_replicate] at hlength hpos
    refine ⟨groups - 1, digits, ⟨by omega, hdigits⟩, List.replicate pad '=', ?_, rfl⟩
    exact List.eq_replicate_iff.mp rfl

theorem ascii_of_isPadded {s : String} (h : IsPadded s) : ∀ c ∈ s.toList, c.val ≤ 127 := by
  obtain ⟨digits, pad, hs, -, hdigits⟩ := h
  intro c hc
  rw [hs, List.mem_append] at hc
  rcases hc with hc | hc
  · rcases hdigits c hc with ⟨-, hle⟩ | ⟨-, hle⟩ | ⟨-, hle⟩ | rfl | rfl
    · exact UInt32.le_trans hle (by decide)
    · exact UInt32.le_trans hle (by decide)
    · exact UInt32.le_trans hle (by decide)
    · decide
    · decide
  · obtain rfl := List.eq_of_mem_replicate hc
    decide

/-- A text has the shape if it is not empty, its length is a multiple of four, and it consists of
digits with at most two equals signs behind them. The length may be that of the text or that of its
bytes. -/
theorem accepts_base64_iff (s : String) :
    (base64.accepts s = true ↔ s ≠ "" ∧ 4 ∣ s.length ∧ IsPadded s) ∧
    (base64.accepts s = true ↔ s ≠ "" ∧ 4 ∣ (Text.utf8 s).length ∧ IsPadded s) := by
  have hchars : base64.accepts s = true ↔ s ≠ "" ∧ 4 ∣ s.length ∧ IsPadded s := by
    rw [accepts, Pattern.accepts_iff, mem_language_base64Pattern]
    constructor
    · rintro ⟨pad, hpad, hs⟩
      obtain ⟨hne, hlength, digits, heq, hdigits⟩ := (mem_completed (by omega)).mp hs
      exact ⟨by simpa using hne, hlength, digits, pad, heq, hpad, hdigits⟩
    · rintro ⟨hne, hlength, digits, pad, heq, hpad, hdigits⟩
      refine ⟨pad, hpad, (mem_completed ?_).mpr ⟨?_, hlength, digits, heq, hdigits⟩⟩
      · omega
      · simpa using hne
  have hbytes : IsPadded s → (Text.utf8 s).length = s.length :=
    fun h => Text.length_utf8_of_ascii (ascii_of_isPadded h)
  refine ⟨hchars, hchars.trans (and_congr_right fun _ => and_congr_left fun hs => ?_)⟩
  rw [hbytes hs]

example : ["Zm9vYg==", "Zm9vYg=\n", "Zg==Zg==", "===="].map base64.accepts =
    [true, false, false, false] := by decide

end TextShape

end SchemaWire
