import Mathlib.Data.List.Perm.Basic
import SchemaWire.Proofs.Value.Entries
import SchemaWire.Static.Table

/-!
Static tables beside the entries of a map value. A table that is listed takes the same steps as the
fold of the entries, and a sorted table holds the same entries in another order.
-/

namespace SchemaWire

variable {κ ν : Type} [Ord κ]

/-! ### The same steps -/

section Fold

variable {R : κ → Value → Prop} {S : ν → Value → Prop}

def EntryRel (R : κ → Value → Prop) (S : ν → Value → Prop) (a : κ × ν) (b : Value × Value) : Prop :=
  R a.1 b.1 ∧ S a.2 b.2

variable (hkeys : ∀ {a b x y}, R a x → R b y → ((x == y) = true ↔ compare b a = .eq))

include hkeys

theorem Table.set_rel {key : κ} {value : ν} {k v : Value} (hkey : R key k) (hvalue : S value v)
    {es : List (κ × ν)} {es' : Entries} (h : List.Forall₂ (EntryRel R S) es es') :
    List.Forall₂ (EntryRel R S) (Table.set key value es) (Entries.set k v es') := by
  induction h with
  | nil => exact .cons ⟨hkey, hvalue⟩ .nil
  | @cons a b es es' hab hrest ih =>
      unfold Table.set Entries.set
      have hequal := hkeys hab.1 hkey
      split
      · next heq =>
        rw [if_pos (hequal.mpr heq)]
        exact .cons ⟨hab.1, hvalue⟩ hrest
      · next hne =>
        rw [if_neg fun heq => hne (hequal.mp heq)]
        exact .cons hab ih

theorem Table.ofList_rel [Std.LawfulEqOrd κ] {es : List (κ × ν)} {es' : Entries}
    (h : List.Forall₂ (EntryRel R S) es es') :
    List.Forall₂ (EntryRel R S) (Table.ofList es).entries es'.fold := by
  -- By induction on what is still to be added; what was added so far is related as well.
  suffices hfold : ∀ {table : Table κ ν} {kept : Entries},
      List.Forall₂ (EntryRel R S) table.entries kept →
        List.Forall₂ (EntryRel R S)
          (es.foldl (fun table e => table.insert e.1 e.2) table).entries (kept.foldOnto es') by
    exact @hfold Table.empty [] .nil
  induction h with
  | nil => exact fun h => h
  | cons hab _ ih => exact fun h => ih (Table.set_rel hkeys hab.1 hab.2 h)

end Fold

/-! ### The same entries -/

section Sorted

variable [Std.LawfulEqOrd κ]

def others (key : κ) (es : List (κ × ν)) : List (κ × ν) := es.filter fun e => compare key e.1 != .eq

theorem not_lt_self (key : κ) : compare key key ≠ .lt := by
  rw [Std.LawfulEqOrd.compare_eq_iff_eq.mpr rfl]
  nofun

theorem others_cons_self (key : κ) (value : ν) (es : List (κ × ν)) :
    others key ((key, value) :: es) = others key es := by
  rw [others, List.filter_cons_of_neg (by simp)]
  rfl

theorem others_cons_of_ne {key k : κ} (h : compare key k ≠ .eq) (v : ν) (es : List (κ × ν)) :
    others key ((k, v) :: es) = (k, v) :: others key es := by
  rw [others, List.filter_cons_of_pos (by simpa using h)]
  rfl

theorem others_of_new {key : κ} {es : List (κ × ν)} (h : key ∉ es.map (·.1)) :
    others key es = es := by
  refine List.filter_eq_self.mpr fun e he => ?_
  have hne : key ≠ e.1 := fun heq => h (heq ▸ List.mem_map_of_mem he)
  simpa using hne

namespace Table

theorem set_perm (key : κ) (value : ν) {es : List (κ × ν)} (h : (es.map (·.1)).Nodup) :
    (set key value es).Perm ((key, value) :: others key es) := by
  fun_induction set key value es with
  | case1 => rfl
  | case2 k v es heq =>
      obtain rfl := Std.LawfulEqCmp.eq_of_compare heq
      rw [List.map_cons, List.nodup_cons] at h
      rw [others_cons_self, others_of_new h.1]
  | case3 k v es hne ih =>
      rw [List.map_cons, List.nodup_cons] at h
      rw [others_cons_of_ne hne]
      exact ((ih h.2).cons (k, v)).trans (List.Perm.swap _ _ _)

end Table

namespace SortedTable

theorem nodup_of_sorted {es : List (κ × ν)}
    (h : (es.map (·.1)).Pairwise fun a b => compare a b = .lt) : (es.map (·.1)).Nodup := by
  refine h.imp fun {a b} hlt heq => ?_
  subst heq
  exact not_lt_self a hlt

variable [Std.TransOrd κ]

theorem set_perm (key : κ) (value : ν) {es : List (κ × ν)}
    (h : (es.map (·.1)).Pairwise fun a b => compare a b = .lt) :
    (set key value es).Perm ((key, value) :: others key es) := by
  fun_induction set key value es with
  | case1 => rfl
  | case2 k v es hlt =>
      -- A key before the first one is before all of them.
      have hnew : key ∉ ((k, v) :: es).map (·.1) := by
        rw [List.map_cons, List.pairwise_cons] at h
        rw [List.map_cons, List.mem_cons]
        rintro (rfl | hmem)
        · exact not_lt_self key hlt
        · exact not_lt_self key (Std.TransCmp.lt_trans hlt (h.1 key hmem))
      rw [others_of_new hnew]
  | case3 k v es heq =>
      obtain rfl := Std.LawfulEqCmp.eq_of_compare heq
      have hnodup := nodup_of_sorted h
      rw [List.map_cons, List.nodup_cons] at hnodup
      rw [others_cons_self, others_of_new hnodup.1]
  | case4 k v es hgt ih =>
      rw [List.map_cons, List.pairwise_cons] at h
      rw [others_cons_of_ne (by simp [hgt])]
      exact ((ih h.2).cons (k, v)).trans (List.Perm.swap _ _ _)

/-- A sorted table and a listed one of the same entries hold the same. -/
theorem ofList_perm (es : List (κ × ν)) : (ofList es).entries.Perm (Table.ofList es).entries := by
  suffices hfold : ∀ {sorted : SortedTable κ ν} {table : Table κ ν},
      sorted.entries.Perm table.entries →
        (es.foldl (fun table e => table.insert e.1 e.2) sorted).entries.Perm
          (es.foldl (fun table e => table.insert e.1 e.2) table).entries by
    exact hfold (List.Perm.refl [])
  induction es with
  | nil => exact fun h => h
  | cons e es ih =>
      intro sorted table h
      -- Both put the entry in front of what they hold under other keys.
      refine ih ((set_perm e.1 e.2 sorted.sorted).trans ?_)
      exact ((h.filter _).cons _).trans (Table.set_perm e.1 e.2 table.distinct).symm

end SortedTable

end Sorted

end SchemaWire
