import Mathlib.Algebra.Group.Nat.Defs
import SchemaWire.Bytes

/-!
The zig-zag code is a bijection of 64-bit words, and the eight bytes of a length below `2 ^ 63`
stand for that length and no other.
-/

namespace SchemaWire

namespace ZigZag

theorem getLsbD_fold (n : BitVec 64) (i : Nat) (hi : i < 64) :
    (fold n).getLsbD i = ((decide (0 < i) && n.getLsbD (i - 1)) ^^ n.getLsbD 63) := by
  have hsign : (n.sshiftRight 63).getLsbD i = n.getLsbD 63 := by
    rw [BitVec.getLsbD_sshiftRight]
    rcases Nat.eq_zero_or_pos i with rfl | hpos
    · simp
    · have hlast : ¬63 + i < 64 := by omega
      simp [hlast, hi, BitVec.msb_eq_getLsbD_last]
  rw [fold, BitVec.getLsbD_xor, hsign, BitVec.getLsbD_shiftLeft]
  rcases Nat.eq_zero_or_pos i with rfl | hpos
  · simp
  · simp [hi, hpos, Nat.not_lt.mpr hpos]

theorem getLsbD_unfold (u : BitVec 64) (i : Nat) (hi : i < 64) :
    (unfold u).getLsbD i = (u.getLsbD (i + 1) ^^ u.getLsbD 0) := by
  unfold unfold
  cases h : u.getLsbD 0
  · rw [if_neg (by simp), BitVec.getLsbD_ushiftRight, Nat.add_comm, Bool.xor_false]
  · rw [if_pos rfl, BitVec.getLsbD_not, BitVec.getLsbD_ushiftRight, Nat.add_comm]
    simp [hi]

theorem unfold_fold (n : BitVec 64) : unfold (fold n) = n := by
  apply BitVec.eq_of_getLsbD_eq
  intro i hi
  rw [getLsbD_unfold _ _ hi, getLsbD_fold _ 0 (by omega)]
  rcases Nat.lt_or_ge (i + 1) 64 with h | h
  · rw [getLsbD_fold _ _ h]
    simp
  · obtain rfl : i = 63 := by omega
    simp [BitVec.getLsbD_of_ge]

theorem fold_unfold (u : BitVec 64) : fold (unfold u) = u := by
  apply BitVec.eq_of_getLsbD_eq
  intro i hi
  rw [getLsbD_fold _ _ hi, getLsbD_unfold _ 63 (by omega), BitVec.getLsbD_of_ge u 64 (by omega)]
  rcases Nat.eq_zero_or_pos i with rfl | hpos
  · simp
  · rw [getLsbD_unfold _ (i - 1) (by omega), Nat.sub_add_cancel hpos]
    simp [hpos]

end ZigZag

namespace Bytes

/-- The eight bytes that announce a length. -/
def ofLength (n : Nat) : Bytes := littleEndian 8 (ZigZag.fold (BitVec.ofNat 64 n)).toNat

@[simp] theorem length_ofLength (n : Nat) : (ofLength n).length = 8 :=
  length_littleEndian 8 _

theorem toInt_ofNat_of_lt {n : Nat} (h : n < 2 ^ 63) : (BitVec.ofNat 64 n).toInt = n := by
  have hword : (BitVec.ofNat 64 n).toNat = n := by
    rw [BitVec.toNat_ofNat, Nat.mod_eq_of_lt (by omega)]
  rw [BitVec.toInt_eq_toNat_of_lt (by omega), hword]

theorem ofNat_toNat_toInt {x : BitVec 64} (h : 0 ≤ x.toInt) :
    x.toInt.toNat < 2 ^ 63 ∧ BitVec.ofNat 64 x.toInt.toNat = x := by
  have hsmall : 2 * x.toNat < 2 ^ 64 := BitVec.toInt_pos_iff.mp h
  have hvalue : x.toInt = x.toNat := BitVec.toInt_eq_toNat_of_lt hsmall
  constructor
  · omega
  · rw [hvalue, Int.toNat_natCast, BitVec.ofNat_toNat, BitVec.setWidth_eq]

end Bytes

end SchemaWire
