/-!
Finite tables in two orders: in the order in which they are listed, and sorted by key. In both a
key stands once, and setting a key that is there replaces its value.
-/

namespace SchemaWire

variable {κ ν : Type} [Ord κ]

/-- A table in the order in which it is listed. -/
structure Table (κ ν : Type) where
  entries : List (κ × ν)
  distinct : (entries.map (·.1)).Nodup

namespace Table

def empty : Table κ ν := ⟨[], .nil⟩

/-- The entries with `key` set to `value`, in its old place or at the end. -/
def set (key : κ) (value : ν) : List (κ × ν) → List (κ × ν)
  | [] => [(key, value)]
  | (k, v) :: es =>
    match compare key k with
    | .eq => (k, value) :: es
    | _ => (k, v) :: set key value es

theorem mem_keys_set {key k : κ} {value : ν} {es : List (κ × ν)}
    (h : k ∈ (set key value es).map (·.1)) : k = key ∨ k ∈ es.map (·.1) := by
  fun_induction set key value es with
  | case1 => exact .inl (List.mem_singleton.mp h)
  | case2 k' v es _ => exact .inr h
  | case3 k' v es _ ih =>
    rcases List.mem_cons.mp h with rfl | h
    · exact .inr List.mem_cons_self
    · exact (ih h).imp_right (List.mem_cons_of_mem k')

variable [Std.LawfulEqOrd κ]

theorem nodup_keys_set (key : κ) (value : ν) {es : List (κ × ν)}
    (h : (es.map (·.1)).Nodup) : ((set key value es).map (·.1)).Nodup := by
  fun_induction set key value es with
  | case1 => simp
  | case2 k v es _ => simpa using h
  | case3 k v es hne ih =>
    simp only [List.map_cons, List.nodup_cons] at h ⊢
    refine ⟨fun hk => ?_, ih h.2⟩
    rcases mem_keys_set hk with rfl | hk
    · exact hne Std.ReflCmp.compare_self
    · exact h.1 hk

def insert (table : Table κ ν) (key : κ) (value : ν) : Table κ ν :=
  ⟨set key value table.entries, nodup_keys_set key value table.distinct⟩

/-- The table of a list of entries; of a key that is listed again the last value counts. -/
def ofList (entries : List (κ × ν)) : Table κ ν :=
  entries.foldl (fun table e => table.insert e.1 e.2) empty

end Table

structure SortedTable (κ ν : Type) [Ord κ] where
  entries : List (κ × ν)
  sorted : (entries.map (·.1)).Pairwise fun a b => compare a b = .lt

namespace SortedTable

def empty : SortedTable κ ν := ⟨[], .nil⟩

def set (key : κ) (value : ν) : List (κ × ν) → List (κ × ν)
  | [] => [(key, value)]
  | (k, v) :: es =>
    match compare key k with
    | .lt => (key, value) :: (k, v) :: es
    | .eq => (k, value) :: es
    | .gt => (k, v) :: set key value es

theorem mem_keys_set {key k : κ} {value : ν} {es : List (κ × ν)}
    (h : k ∈ (set key value es).map (·.1)) : k = key ∨ k ∈ es.map (·.1) := by
  fun_induction set key value es with
  | case1 => exact .inl (List.mem_singleton.mp h)
  | case2 k' v es _ => exact List.mem_cons.mp h
  | case3 k' v es _ => exact .inr h
  | case4 k' v es _ ih =>
    rcases List.mem_cons.mp h with rfl | h
    · exact .inr List.mem_cons_self
    · exact (ih h).imp_right (List.mem_cons_of_mem k')

variable [Std.TransOrd κ]

theorem sorted_keys_set (key : κ) (value : ν) {es : List (κ × ν)}
    (h : (es.map (·.1)).Pairwise fun a b => compare a b = .lt) :
    ((set key value es).map (·.1)).Pairwise fun a b => compare a b = .lt := by
  fun_induction set key value es with
  | case1 => simp
  | case2 k v es hlt =>
    simp only [List.map_cons, List.pairwise_cons] at h ⊢
    refine ⟨fun k' hk => ?_, h⟩
    rcases List.mem_cons.1 hk with rfl | hk
    · exact hlt
    · exact Std.TransCmp.lt_trans hlt (h.1 k' hk)
  | case3 k v es _ => simpa using h
  | case4 k v es hgt ih =>
    simp only [List.map_cons, List.pairwise_cons] at h ⊢
    refine ⟨fun k' hk => ?_, ih h.2⟩
    rcases mem_keys_set hk with rfl | hk
    · exact Std.OrientedCmp.lt_of_gt hgt
    · exact h.1 k' hk

def insert (table : SortedTable κ ν) (key : κ) (value : ν) : SortedTable κ ν :=
  ⟨set key value table.entries, sorted_keys_set key value table.sorted⟩

def ofList (entries : List (κ × ν)) : SortedTable κ ν :=
  entries.foldl (fun table e => table.insert e.1 e.2) empty

end SortedTable

end SchemaWire
