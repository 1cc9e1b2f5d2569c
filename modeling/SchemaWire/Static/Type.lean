import SchemaWire.Bytes
import SchemaWire.Scalar.Kind
import SchemaWire.Static.Table

/-!
Static types: types whose values need no schema beside them, because the type itself says what they
are. Every static type comes with its values and with a total order on them, by which sorted tables
are kept: numbers in numeric order, texts by code points, byte strings and lists by the first
difference, what is absent before what is present.
-/

namespace SchemaWire

inductive StaticType where
  | num (kind : NumKind)
  | bool
  | string
  | bytes
  | option (elem : StaticType)
  | array (length : Nat) (elem : StaticType)
  | list (elem : StaticType)
  /-- a table whose order is of no account -/
  | table (key value : StaticType)
  | sortedTable (key value : StaticType)
  deriving Repr, DecidableEq

/-- A type with a total order on it. -/
structure Ordered where
  carrier : Type
  order : Ord carrier
  trans : Std.TransOrd carrier
  lawful : Std.LawfulEqOrd carrier

namespace Ordered

attribute [instance] order trans lawful

abbrev ofOrd (α : Type) [Ord α] [Std.TransOrd α] [Std.LawfulEqOrd α] : Ordered :=
  ⟨α, inferInstance, inferInstance, inferInstance⟩

/-- A type ordered by a measure that tells all its values apart. -/
abbrev byMeasure {α : Type} (B : Ordered) (measure : α → B.carrier)
    (injective : ∀ {a b}, measure a = measure b → a = b) : Ordered where
  carrier := α
  order := ⟨compareOn measure⟩
  trans := inferInstanceAs (Std.TransCmp (compareOn measure))
  lawful := {
    compare_self := fun {a} => (Std.ReflCmp.compare_self : compare (measure a) (measure a) = .eq)
    eq_of_compare := fun {a b} (h : compare (measure a) (measure b) = .eq) =>
      injective (Std.LawfulEqCmp.eq_of_compare h) }

/-- Numbers in the order of their sort; floats, which are no keys, by their bits. -/
abbrev num (k : NumKind) : Ordered :=
  byMeasure (ofOrd Int)
    (fun w : BitVec k.bits =>
      match k.sort with
      | .signed => w.toInt
      | _ => w.toNat) <| by
    intro a b h
    split at h
    · exact BitVec.eq_of_toInt_eq h
    · exact BitVec.eq_of_toNat_eq (Int.ofNat_inj.mp h)

abbrev pair (A B : Ordered) : Ordered where
  carrier := A.carrier × B.carrier
  order := ⟨compareLex (compareOn Prod.fst) (compareOn Prod.snd)⟩
  trans := inferInstanceAs (Std.TransCmp (compareLex (compareOn Prod.fst) (compareOn Prod.snd)))
  lawful := {
    compare_self := fun {a} => by
      show (compare a.1 a.1).then (compare a.2 a.2) = .eq
      simp
    eq_of_compare := fun {a b} (h : (compare a.1 b.1).then (compare a.2 b.2) = .eq) => by
      rw [Ordering.then_eq_eq] at h
      exact Prod.ext (Std.LawfulEqCmp.eq_of_compare h.1) (Std.LawfulEqCmp.eq_of_compare h.2) }

abbrev option (A : Ordered) : Ordered := ofOrd (Option A.carrier)

abbrev list (A : Ordered) : Ordered := ofOrd (List A.carrier)

abbrev array (n : Nat) (A : Ordered) : Ordered :=
  byMeasure (list A) (fun items : { items : List A.carrier // items.length = n } => items.val)
    Subtype.ext

abbrev table (A B : Ordered) : Ordered :=
  byMeasure (list (pair A B)) (fun table : Table A.carrier B.carrier => table.entries)
    fun {a b} (h : a.entries = b.entries) => by cases a; cases b; cases h; rfl

abbrev sortedTable (A B : Ordered) : Ordered :=
  byMeasure (list (pair A B)) (fun table : SortedTable A.carrier B.carrier => table.entries)
    fun {a b} (h : a.entries = b.entries) => by cases a; cases b; cases h; rfl

end Ordered

namespace StaticType

/-- The values of a static type, with their order. -/
@[reducible] def model : StaticType → Ordered
  | num k => .num k
  | bool => .ofOrd Bool
  | string => .ofOrd String
  | bytes => .ofOrd Bytes
  | option t => .option t.model
  | array n t => .array n t.model
  | list t => .list t.model
  | table k v => .table k.model v.model
  | sortedTable k v => .sortedTable k.model v.model

abbrev Carrier (t : StaticType) : Type := t.model.carrier

end StaticType

end SchemaWire
