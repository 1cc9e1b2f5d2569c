import Mathlib.Algebra.Group.Int.Defs
import SchemaWire.Proofs.Wire.Emission
import SchemaWire.Proofs.Wire.Reading

/-!
Length prefixes at the limits of their word. Every word of 64 bits is the zig-zag code of one signed
number, and so every eight bytes are the prefix of one length: those of an even word of a length
below `2 ^ 63`, which is read back as it was written, and those of an odd word of a greater one,
which is taken for a negative number.
-/

namespace SchemaWire

open Stateful

namespace ZigZag

theorem toInt_unfold (u : BitVec 64) : (unfold u).toInt =
    if u.toNat % 2 = 0 then (u.toNat / 2 : Int) else -(u.toNat / 2 : Int) - 1 := by
  have hlow : u.getLsbD 0 = decide (u.toNat % 2 = 1) := Nat.testBit_zero u.toNat
  have hhalf : (u >>> 1).toNat = u.toNat / 2 := by
    rw [BitVec.toNat_ushiftRight, Nat.shiftRight_eq_div_pow, Nat.pow_one]
  have hbound := u.isLt
  unfold unfold
  rw [hlow]
  by_cases heven : u.toNat % 2 = 0
  · have hodd : ¬u.toNat % 2 = 1 := by omega
    rw [if_neg (by simpa using hodd), if_pos heven, BitVec.toInt_eq_toNat_of_lt (by omega), hhalf]
    rfl
  · have hodd : u.toNat % 2 = 1 := by omega
    rw [if_pos (by simpa using hodd), if_neg heven, BitVec.toInt_eq_toNat_cond, BitVec.toNat_not,
      hhalf, if_neg (by omega)]
    omega

/-- The sign is in the lowest bit and the magnitude in the others, counted from zero on either
side. -/
theorem toNat_fold (x : BitVec 64) :
    ((fold x).toNat : Int) = if x.toInt < 0 then -2 * x.toInt - 1 else 2 * x.toInt := by
  have hvalue := toInt_unfold (fold x)
  rw [unfold_fold] at hvalue
  split at hvalue
  · rw [if_neg (by omega)]
    omega
  · rw [if_pos (by omega)]
    omega

end ZigZag

namespace Bytes

theorem exists_word {bs : Bytes} (h : bs.length = 8) :
    ∃ u : BitVec 64, littleEndian 8 u.toNat = bs := by
  have hlt := ofLittleEndian_lt bs
  have hback := littleEndian_ofLittleEndian bs
  rw [h] at hlt hback
  refine ⟨BitVec.ofNat 64 (ofLittleEndian bs), ?_⟩
  rw [BitVec.toNat_ofNat, Nat.mod_eq_of_lt hlt, hback]

theorem even_first_iff {u : BitVec 64} {b : UInt8} {bs : Bytes}
    (h : littleEndian 8 u.toNat = b :: bs) : b &&& 1 = 0 ↔ u.toNat % 2 = 0 := by
  have hb : UInt8.ofNat u.toNat = b := (List.cons.inj h).1
  rw [← UInt8.toNat_inj, UInt8.toNat_and, ← hb, UInt8.toNat_ofNat']
  show (u.toNat % 256) &&& 1 = 0 ↔ _
  rw [Nat.and_one_is_mod]
  omega

end Bytes

/-- The eight bytes that pushing a length leaves in an empty buffer. -/
def Push.lengthBytes (n : Nat) : Bytes := (Push.length n Buffer.empty).2.toList

theorem Push.lengthBytes_eq (n : Nat) : Push.lengthBytes n = Bytes.ofLength n := by
  have hpush := Buffer.faithful.pushBlock (Bytes.ofLength n) Buffer.empty
  show (Sink.pushBlock (Bytes.ofLength n) Buffer.empty).2.toList = Bytes.ofLength n
  rw [hpush]
  simp [Buffer.append, Buffer.toList, Buffer.empty]

namespace Reader

/-! ### Reading eight bytes -/

section Reading

variable {c c' : Cursor} {offset n : Nat} {bs rest : Bytes}

theorem length_of_passed {u : BitVec 64} (h : c.Passed (Bytes.littleEndian 8 u.toNat) c') :
    length c = if u.toNat % 2 = 0 then .ok (u.toNat / 2) c'
      else .error (.negativeLength (-(u.toNat / 2 : Int) - 1)) c' := by
  unfold length
  rw [bind_of_ok (word_eq_ok.mpr h), ZigZag.toInt_unfold]
  by_cases heven : u.toNat % 2 = 0
  · rw [if_pos heven, if_pos heven, if_neg (by omega)]
    rfl
  · rw [if_neg heven, if_neg heven, if_pos (by omega)]
    rfl

/-- A length that was written is read back if it is less than `2 ^ 63`, and otherwise as the
negative number of the same word. -/
theorem length_lengthBytes (hn : n < 2 ^ 64) :
    length ⟨offset, Push.lengthBytes n ++ rest⟩ =
      if n < 2 ^ 63 then .ok n ⟨offset + 8, rest⟩
      else .error (.negativeLength (n - 2 ^ 64)) ⟨offset + 8, rest⟩ := by
  have hpassed : Cursor.Passed ⟨offset, Push.lengthBytes n ++ rest⟩ (Bytes.ofLength n)
      ⟨offset + 8, rest⟩ := by
    rw [Push.lengthBytes_eq]
    exact ⟨rfl, rfl⟩
  have hfold := ZigZag.toNat_fold (BitVec.ofNat 64 n)
  rw [length_of_passed hpassed]
  by_cases hlt : n < 2 ^ 63
  · rw [Bytes.toInt_ofNat_of_lt hlt, if_neg (by omega)] at hfold
    have hhalf : (ZigZag.fold (BitVec.ofNat 64 n)).toNat / 2 = n := by omega
    rw [if_pos (by omega), if_pos hlt, hhalf]
  · have hvalue : (BitVec.ofNat 64 n).toInt = n - 2 ^ 64 := by
      rw [BitVec.toInt_eq_toNat_cond, BitVec.toNat_ofNat, Nat.mod_eq_of_lt hn, if_neg (by omega)]
      rfl
    rw [hvalue, if_pos (by omega)] at hfold
    have hhalf : -((ZigZag.fold (BitVec.ofNat 64 n)).toNat / 2 : Int) - 1 = n - 2 ^ 64 := by omega
    rw [if_neg (by omega), if_neg hlt, hhalf]

/-- The lowest bit of the first byte tells whether eight bytes are a length. -/
theorem exists_length_iff {b : UInt8} (hbs : bs.length = 7) :
    (∃ n c', length ⟨offset, b :: bs ++ rest⟩ = .ok n c') ↔ b &&& 1 = 0 := by
  have hlength : (b :: bs).length = 8 := by rw [List.length_cons, hbs]
  obtain ⟨u, hu⟩ := Bytes.exists_word hlength
  have hpassed : Cursor.Passed ⟨offset, b :: bs ++ rest⟩ (Bytes.littleEndian 8 u.toNat)
      ⟨offset + 8, rest⟩ := by
    rw [hu]
    exact ⟨rfl, by rw [hlength]⟩
  rw [length_of_passed hpassed, Bytes.even_first_iff hu]
  by_cases heven : u.toNat % 2 = 0
  · rw [if_pos heven]
    exact ⟨fun _ => heven, fun _ => ⟨_, _, rfl⟩⟩
  · rw [if_neg heven]
    exact ⟨nofun, fun h => absurd h heven⟩

theorem lengthBytes_of_length (hbs : bs.length = 8)
    (h : length ⟨offset, bs ++ rest⟩ = .ok n c') : Push.lengthBytes n = bs := by
  obtain ⟨-, hrest, -⟩ := length_eq_ok.mp h
  rw [Push.lengthBytes_eq]
  exact (List.append_inj hrest (by rw [hbs, Bytes.length_ofLength])).1.symm

end Reading

/-- The code and its inverse undo each other on all words of 64 bits, and the code of a number is
twice that number, or one less than twice its magnitude if it is negative. The eight bytes written
for a length below `2 ^ 63` are read as this length, and those for a greater one as the negative
number that is `2 ^ 64` less. Of all eight bytes, those that begin with an even one are read as a
length, and are written again for it. -/
theorem length_prefix_exact :
    (Function.LeftInverse ZigZag.unfold ZigZag.fold ∧
      Function.RightInverse ZigZag.unfold ZigZag.fold ∧
      ∀ x, ((ZigZag.fold x).toNat : Int) =
        if x.toInt < 0 then -2 * x.toInt - 1 else 2 * x.toInt) ∧
    (∀ n < 2 ^ 64, (Push.lengthBytes n).length = 8 ∧ ∀ offset rest,
      length ⟨offset, Push.lengthBytes n ++ rest⟩ =
        if n < 2 ^ 63 then .ok n ⟨offset + 8, rest⟩
        else .error (.negativeLength (n - 2 ^ 64)) ⟨offset + 8, rest⟩) ∧
    ∀ b bs, bs.length = 7 → ∀ offset rest,
      ((∃ n c', length ⟨offset, b :: bs ++ rest⟩ = .ok n c') ↔ b &&& 1 = 0) ∧
      ∀ n c', length ⟨offset, b :: bs ++ rest⟩ = .ok n c' → Push.lengthBytes n = b :: bs := by
  refine ⟨⟨ZigZag.unfold_fold, ZigZag.fold_unfold, ZigZag.toNat_fold⟩, fun n hn => ⟨?_, ?_⟩,
    fun b bs hbs offset rest => ⟨exists_length_iff hbs, ?_⟩⟩
  · rw [Push.lengthBytes_eq, Bytes.length_ofLength]
  · intro offset rest
    exact length_lengthBytes hn
  · intro n c' h
    exact lengthBytes_of_length (by rw [List.length_cons, hbs]) h

/-- The greatest length, the least number that is none and the greatest one; the eight bytes of the
greatest length, and eight bytes of no length. -/
theorem length_prefix_exact_limits :
    2 ^ 63 - 1 < 2 ^ 64 ∧ 2 ^ 63 < 2 ^ 64 ∧ 2 ^ 64 - 1 < 2 ^ 64 ∧
    (List.replicate 7 (255 : UInt8)).length = 7 ∧
    length (.start (Push.lengthBytes (2 ^ 63 - 1) ++ [7])) = .ok (2 ^ 63 - 1) ⟨8, [7]⟩ ∧
    length (.start (Push.lengthBytes (2 ^ 63) ++ [7])) =
      .error (.negativeLength (-2 ^ 63)) ⟨8, [7]⟩ ∧
    length (.start (Push.lengthBytes (2 ^ 64 - 1) ++ [7])) =
      .error (.negativeLength (-1)) ⟨8, [7]⟩ ∧
    Push.lengthBytes (2 ^ 63 - 1) = 254 :: List.replicate 7 255 ∧
    ¬∃ n c', length (.start (255 :: List.replicate 7 255 ++ [7])) = .ok n c' := by
  have hgreatest : 2 ^ 63 - 1 < 2 ^ 64 := by decide
  have hleast : 2 ^ 63 < 2 ^ 64 := by decide
  have hlast : 2 ^ 64 - 1 < 2 ^ 64 := by decide
  have hseven : (List.replicate 7 (255 : UInt8)).length = 7 := rfl
  obtain ⟨-, hwritten, hread⟩ := length_prefix_exact
  obtain ⟨-, hback⟩ := hread 254 (List.replicate 7 255) hseven 0 [7]
  obtain ⟨hexists, -⟩ := hread 255 (List.replicate 7 255) hseven 0 [7]
  refine ⟨hgreatest, hleast, hlast, hseven, ?_, ?_, ?_, ?_, ?_⟩
  · exact ((hwritten _ hgreatest).2 0 [7]).trans (if_pos (by decide))
  · exact ((hwritten _ hleast).2 0 [7]).trans (if_neg (by decide))
  · exact ((hwritten _ hlast).2 0 [7]).trans (if_neg (by decide))
  · exact hback _ ⟨8, [7]⟩ rfl
  · exact mt hexists.mp (by decide)

end Reader

end SchemaWire
