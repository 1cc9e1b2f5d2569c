/-!
Byte strings as lists, with a natural number written little end first in a fixed number of bytes,
and the zig-zag code of signed words. A length travels as a signed 64-bit number whose sign has been
folded into the lowest bit, so that small lengths of either sign stay small; a reader undoes the
fold and refuses what turns out to be negative.
-/

namespace SchemaWire

abbrev Bytes := List UInt8

namespace Bytes

-- Powers in this file are the core library's.
attribute [local instance (high)] instPowNat

/-- The low `8 * n` bits of `x` as `n` bytes, least significant first. -/
def littleEndian : Nat → Nat → Bytes
  | 0, _ => []
  | n + 1, x => UInt8.ofNat x :: littleEndian n (x / 256)

def ofLittleEndian : Bytes → Nat
  | [] => 0
  | b :: bs => b.toNat + 256 * ofLittleEndian bs

@[simp] theorem length_littleEndian (n x : Nat) : (littleEndian n x).length = n := by
  induction n generalizing x with
  | zero => rfl
  | succ n ih => simp [littleEndian, ih]

theorem ofLittleEndian_littleEndian (n x : Nat) :
    ofLittleEndian (littleEndian n x) = x % 256 ^ n := by
  induction n generalizing x with
  | zero => simp [littleEndian, ofLittleEndian, Nat.mod_one]
  | succ n ih =>
    have byte : (UInt8.ofNat x).toNat = x % 256 := UInt8.toNat_ofNat'
    rw [littleEndian, ofLittleEndian, ih, byte, Nat.pow_succ, Nat.mul_comm (256 ^ n) 256,
      Nat.mod_mul]

theorem littleEndian_ofLittleEndian (bs : Bytes) :
    littleEndian bs.length (ofLittleEndian bs) = bs := by
  induction bs with
  | nil => rfl
  | cons b bs ih =>
    have hb : b.toNat < 256 := b.toNat_lt
    have head : UInt8.ofNat (b.toNat + 256 * ofLittleEndian bs) = b := by
      apply UInt8.toNat_inj.mp
      have byte : (UInt8.ofNat (b.toNat + 256 * ofLittleEndian bs)).toNat =
          (b.toNat + 256 * ofLittleEndian bs) % 256 := UInt8.toNat_ofNat'
      omega
    have tail : (b.toNat + 256 * ofLittleEndian bs) / 256 = ofLittleEndian bs := by omega
    simp only [List.length_cons, littleEndian, ofLittleEndian, head, tail, ih]

theorem ofLittleEndian_lt (bs : Bytes) : ofLittleEndian bs < 256 ^ bs.length := by
  rw [← littleEndian_ofLittleEndian bs, ofLittleEndian_littleEndian, length_littleEndian]
  exact Nat.mod_lt _ (Nat.pow_pos (by omega))

/-- Order of byte strings: by the first byte that differs, a proper initial part being smaller. -/
def order : Bytes → Bytes → Ordering
  | [], [] => .eq
  | [], _ :: _ => .lt
  | _ :: _, [] => .gt
  | a :: as, b :: bs => (compare a b).then (order as bs)

end Bytes

namespace ZigZag

/-- The word that stands for the signed number `n`: `2 * n` when `n` is not negative and
`-2 * n - 1` when it is. -/
def fold (n : BitVec 64) : BitVec 64 := (n <<< 1) ^^^ n.sshiftRight 63

def unfold (u : BitVec 64) : BitVec 64 :=
  if u.getLsbD 0 then ~~~(u >>> 1) else u >>> 1

end ZigZag

end SchemaWire
