import SchemaWire.Proofs.Decimal.Value

/-!
Numbers as they are ordered. A number of any kind stands for a point on the extended line, unless it
is a floating-point pattern that is no number. Its kind alone decides which; on the scale of its
sort it stands for the same point, since widening loses nothing. Two numbers of one kind are
compared as the points are.
-/

namespace SchemaWire

def Number.value? : Number → Option Extended
  | .signed n => some (.ofRat n)
  | .unsigned n => some (.ofRat n)
  | .float pattern => BinaryFormat.double.value? pattern.toNat

def Number.sort : Number → NumSort
  | .signed _ => .signed
  | .unsigned _ => .unsigned
  | .float _ => .float

/-- Numbers of one scale are compared as the points that they stand for. -/
theorem Number.compare?_eq_cmp {a b : Number} (hsort : a.sort = b.sort) {x y : Extended}
    (ha : a.value? = some x) (hb : b.value? = some y) : a.compare? b = some (cmp x y) := by
  cases a with
  | signed m =>
      cases b with
      | signed n =>
          obtain rfl := Option.some.inj ha
          obtain rfl := Option.some.inj hb
          have hcast : StrictMono fun n : Int => Extended.ofRat n :=
            Extended.ofRat_strictMono.comp Int.cast_strictMono
          rw [compare?, hcast.cmp_map_eq, cmp_eq_compare]
      | unsigned | float => cases hsort
  | unsigned m =>
      cases b with
      | unsigned n =>
          obtain rfl := Option.some.inj ha
          obtain rfl := Option.some.inj hb
          have hcast : StrictMono fun n : Nat => Extended.ofRat n :=
            Extended.ofRat_strictMono.comp Nat.strictMono_cast
          rw [compare?, hcast.cmp_map_eq, cmp_eq_compare]
      | signed | float => cases hsort
  | float p =>
      cases b with
      | float q => exact BinaryFormat.double.order?_eq_cmp (by decide) ha hb
      | signed | unsigned => cases hsort

def Literal.value? (l : Literal) : Option Extended := l.number?.bind Number.value?

namespace Num

def value? (n : Num) : Option Extended :=
  match n.kind.sort with
  | .signed => some (.ofRat n.word.toInt)
  | .unsigned => some (.ofRat n.word.toNat)
  | .float => n.kind.format.value? n.word.toNat

/-- The number is a floating-point pattern without a value. -/
def IsNan (n : Num) : Prop :=
  n.kind.sort = .float ∧ n.kind.format.isNan n.word.toNat = true

theorem value?_eq_none_iff {n : Num} : n.value? = none ↔ n.IsNan := by
  unfold value? IsNan
  cases n.kind.sort with
  | signed | unsigned => simp
  | float => simp [BinaryFormat.value?_eq_none_iff]

theorem sort_number (n : Num) : n.number.sort = n.kind.sort := by
  unfold number
  cases n.kind.sort <;> rfl

theorem value?_number (n : Num) : n.number.value? = n.value? := by
  obtain ⟨kind, word⟩ := n
  cases kind with
  | float64 =>
      have hword : word.toNat < 2 ^ 64 := word.isLt
      rw [number_float64, Number.value?, BitVec.toNat_ofNat, Nat.mod_eq_of_lt hword]
      rfl
  | float32 =>
      have hwide : BinaryFormat.single.convert .double word.toNat < 2 ^ 64 :=
        BinaryFormat.single.convert_lt .double (by decide) _
      rw [number_float32, Number.value?, BitVec.toNat_ofNat, Nat.mod_eq_of_lt hwide,
        BinaryFormat.single_widens_double.value?_convert]
      rfl
  | _ => rfl

theorem compare?_number {n m : Num} (hkind : n.kind = m.kind) {x y : Extended}
    (hx : n.value? = some x) (hy : m.value? = some y) :
    n.number.compare? m.number = some (cmp x y) := by
  rw [← value?_number] at hx hy
  refine Number.compare?_eq_cmp ?_ hx hy
  rw [sort_number, sort_number, hkind]

end Num

theorem Literal.OfKind.exists_num {k : NumKind} {l : Literal} (h : l.OfKind (.num k)) :
    ∃ m : Num, m.kind = k ∧ l.number? = some m.number ∧ l.value? = m.value? := by
  obtain ⟨word, hword⟩ := h
  refine ⟨⟨k, word⟩, rfl, hword, ?_⟩
  rw [Literal.value?, hword, Option.bind_some, Num.value?_number]

end SchemaWire
