import SchemaWire.Proofs.Codec.NumericBounds

/-!
Comparisons that are compiled can be made. A literal of a compiled rule and the value that is read
for its field are both of the field's kind, whatever is compared: texts are ordered as their bytes,
truth values with `false` first, whole numbers as they are. Only a floating-point pattern that is no
number has no order, so no other value passes a bound because it was not compared.
-/

namespace SchemaWire

theorem Bytes.order_eq_compare (a b : Bytes) : Bytes.order a b = compare a b := by
  induction a generalizing b with
  | nil => cases b <;> rfl
  | cons x a ih =>
      cases b with
      | nil => rfl
      | cons y b => rw [order, ih, List.compare_cons_cons]

namespace Num

variable {n : Num}

theorem number_of_signed (hsort : n.kind.sort = .signed) : n.number = .signed n.word.toInt := by
  simp only [number, hsort]

theorem number_of_unsigned (hsort : n.kind.sort = .unsigned) :
    n.number = .unsigned n.word.toNat := by
  simp only [number, hsort]

theorem exists_number_of_float (hsort : n.kind.sort = .float) :
    ∃ pattern, n.number = .float pattern ∧
      (BinaryFormat.double.isNan pattern.toNat = true ↔ n.IsNan) := by
  have hscale := n.sort_number
  rw [hsort] at hscale
  cases hnumber : n.number with
  | signed | unsigned =>
      rw [hnumber] at hscale
      cases hscale
  | float pattern =>
      refine ⟨pattern, rfl, ?_⟩
      rw [← value?_eq_none_iff, ← value?_number, hnumber, ← BinaryFormat.value?_eq_none_iff]
      rfl

end Num

namespace Literal

/-- How a literal and a value of one kind compare. -/
def Compares (l : Literal) (v : Value) : Kind → Prop
  | .string => ∃ s t, v = .text s ∧ l = .text t ∧
      l.order? v = some (compare (Text.utf8 s) (Text.utf8 t))
  | .bool => ∃ b c, v = .flag b ∧ l = .flag c ∧ l.order? v = some (compare b c)
  | .num k => ∃ n : Num, v = .num n ∧ n.kind = k ∧
      match k.sort with
      | .signed => ∃ m : Int, l = .signed m ∧ l.order? v = some (compare n.word.toInt m)
      | .unsigned => ∃ m : Nat, l = .unsigned m ∧ l.order? v = some (compare n.word.toNat m)
      | .float => ∃ pattern, l = .float pattern ∧
          (l.order? v = none ↔ n.IsNan ∨ BinaryFormat.double.isNan pattern.toNat = true) ∧
          ∀ x a, n.value? = some x → l.value? = some a → l.order? v = some (cmp x a)

variable {l : Literal} {n : Num}

theorem eq_of_number?_eq {l' : Literal} {x : Number} (h : l.number? = some x)
    (h' : l'.number? = some x) : l = l' := by
  cases l <;> cases l' <;> cases h <;> cases h' <;> rfl

theorem compares_num (hl : l.OfKind (.num n.kind)) : l.Compares (.num n) (.num n.kind) := by
  obtain ⟨m, hm, hnumber, -⟩ := hl.exists_num
  have horder : l.order? (.num n) = n.number.compare? m.number := order?_num_eq hnumber
  refine ⟨n, rfl, rfl, ?_⟩
  split
  · next hsort =>
    rw [Num.number_of_signed (hm ▸ hsort : m.kind.sort = .signed)] at hnumber horder
    rw [Num.number_of_signed hsort] at horder
    exact ⟨m.word.toInt, eq_of_number?_eq hnumber rfl, horder⟩
  · next hsort =>
    rw [Num.number_of_unsigned (hm ▸ hsort : m.kind.sort = .unsigned)] at hnumber horder
    rw [Num.number_of_unsigned hsort] at horder
    exact ⟨m.word.toNat, eq_of_number?_eq hnumber rfl, horder⟩
  · next hsort =>
    obtain ⟨p, hp, -⟩ := Num.exists_number_of_float (hm ▸ hsort : m.kind.sort = .float)
    obtain ⟨q, hq, hnan⟩ := Num.exists_number_of_float hsort
    rw [hp] at hnumber horder
    refine ⟨p, eq_of_number?_eq hnumber rfl, ?_, fun x a hx ha => order?_num hl ha hx⟩
    rw [horder, hq, Number.compare?, BinaryFormat.order?, ← hnan]
    simp [imp_iff_not_or]

theorem compares_of_normal {kind : Kind} {name : Option String} {v : Value} (hl : l.OfKind kind)
    (hv : (Schema.scalar kind name).Normal v) : l.Compares v kind := by
  cases kind with
  | string =>
      obtain ⟨t, rfl⟩ := hl
      cases v with
      | text s => exact ⟨s, t, rfl, rfl, congrArg some (Bytes.order_eq_compare _ _)⟩
      | _ => exact hv.elim
  | bool =>
      obtain ⟨c, rfl⟩ := hl
      cases v with
      | flag b => exact ⟨b, c, rfl, rfl, rfl⟩
      | _ => exact hv.elim
  | num k =>
      cases v with
      | num n =>
          obtain rfl : n.kind = k := hv
          exact compares_num hl
      | _ => exact hv.elim

end Literal

/-- Every comparison that is compiled can be made. Whatever is read for the type of a constraint,
each literal of its rule compares with it, or with its contents if it is optional, in the order of
the kind of both; only floating-point patterns that are no numbers have no order. -/
theorem Constraint.compares_of_compile {name field : String} {given : Option String} {type : Schema}
    {k : Constraint} (hcompile : compile name given field type = .ok k) {gate : List Constraint}
    {v : Value} {c c' : Cursor} (hread : type.read gate c = .ok v c') (hpresent : v ≠ .absent) :
    ∀ l ∈ k.rule.literals, ∃ kind, type.inner.scalarKind? = some kind ∧
      l.Compares v.contents kind := by
  intro l hl
  obtain ⟨kind, hscalar, hkind⟩ := (fits_of_compile hcompile).literals l hl
  obtain ⟨label, hinner⟩ := Schema.exists_scalar_of_scalarKind? hscalar
  have hcontents := (Schema.normal_of_read hread).contents hpresent
  rw [hinner] at hcontents
  exact ⟨kind, hscalar, Literal.compares_of_normal hkind hcontents⟩

theorem Constraint.compares_of_compile_negative :
    compile "neq" (some " +7") "n" (.optional (.scalar (.num .int16) none)) =
      .ok ⟨"n", .neq (.signed 7), true⟩ ∧
    (Schema.optional (.scalar (.num .int16) none)).read [] (.start [1, 0xf9, 0xff]) =
      .ok (.present (.num ⟨.int16, -7⟩)) ⟨3, []⟩ ∧
    ∃ kind, some (.num .int16) = some kind ∧
      (Literal.signed 7).Compares (.num ⟨.int16, -7⟩) kind := by
  have hcompile : compile "neq" (some " +7") "n" (.optional (.scalar (.num .int16) none)) =
      .ok ⟨"n", .neq (.signed 7), true⟩ := by decide +kernel
  have hread : (Schema.optional (.scalar (.num .int16) none)).read [] (.start [1, 0xf9, 0xff]) =
      .ok (.present (.num ⟨.int16, -7⟩)) ⟨3, []⟩ := rfl
  exact ⟨hcompile, hread,
    compares_of_compile hcompile hread nofun (.signed 7) (List.mem_singleton_self _)⟩

end SchemaWire
