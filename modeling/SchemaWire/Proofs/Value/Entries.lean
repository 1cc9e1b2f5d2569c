import SchemaWire.Proofs.Value.Equality
import SchemaWire.Value.Index

/-!
The entries that remain when a list of entries is folded by key. The fold is stated as a linear scan
over the entries kept so far, and the table that finds keys by what they feed to a hash function
keeps exactly the same entries.
-/

namespace SchemaWire

abbrev Entries := List (Value × Value)

namespace Entries

/-- The entries with the value under `key` replaced, or with a new entry at the end. -/
def set (key value : Value) : Entries → Entries
  | [] => [(key, value)]
  | (k, v) :: es => if k == key then (k, value) :: es else (k, v) :: set key value es

def foldOnto (kept es : Entries) : Entries := es.foldl (fun kept e => set e.1 e.2 kept) kept

/-- The entries that remain: a key that comes again gives its value to the first of its kind. -/
def fold (es : Entries) : Entries := foldOnto [] es

@[simp] theorem foldOnto_nil (kept : Entries) : foldOnto kept [] = kept := rfl

@[simp] theorem foldOnto_cons (kept : Entries) (e : Value × Value) (es : Entries) :
    foldOnto kept (e :: es) = foldOnto (set e.1 e.2 kept) es := rfl

def DistinctKeys (es : Entries) : Prop := (es.map (·.1)).Pairwise fun a b => (a == b) = false

theorem set_of_new {key value : Value} {es : Entries}
    (h : ∀ e ∈ es, (e.1 == key) = false) : set key value es = es ++ [(key, value)] := by
  induction es with
  | nil => rfl
  | cons e es ih =>
      have hhead := h e List.mem_cons_self
      rw [set, hhead, if_neg Bool.false_ne_true, ih fun x hx => h x (List.mem_cons_of_mem e hx)]
      rfl

theorem foldOnto_of_distinct {kept es : Entries} (h : DistinctKeys (kept ++ es)) :
    foldOnto kept es = kept ++ es := by
  induction es generalizing kept with
  | nil => simp
  | cons e es ih =>
      have hnew : ∀ x ∈ kept, (x.1 == e.1) = false := by
        rw [DistinctKeys, List.map_append, List.pairwise_append] at h
        intro x hx
        exact h.2.2 x.1 (List.mem_map_of_mem hx) e.1 List.mem_cons_self
      rw [foldOnto_cons, set_of_new hnew, ih (by simpa using h), List.append_assoc]
      rfl

theorem fold_of_distinct {es : Entries} (h : DistinctKeys es) : fold es = es :=
  foldOnto_of_distinct h

theorem map_fst_set (key value : Value) (es : Entries) :
    (set key value es).map (·.1) =
      if es.any (·.1 == key) then es.map (·.1) else es.map (·.1) ++ [key] := by
  induction es with
  | nil => rfl
  | cons e es ih =>
      cases h : e.1 == key
      · simp only [set, h, Bool.false_eq_true, if_false, List.map_cons, ih, List.any_cons,
          Bool.false_or]
        split <;> rfl
      · simp [set, h]

theorem map_fst_set_of_mem {key value : Value} {es : Entries} {place : Nat}
    (h : (es.map (·.1)).findIdx? (· == key) = some place) :
    (set key value es).map (·.1) = es.map (·.1) := by
  have hany : es.any (·.1 == key) = true := by
    rw [← Bool.not_eq_false]
    intro hnone
    rw [List.findIdx?_eq_none_iff.mpr (by simpa using hnone)] at h
    cases h
  rw [map_fst_set, if_pos hany]

theorem distinct_set (key value : Value) {es : Entries} (h : DistinctKeys es) :
    DistinctKeys (set key value es) := by
  rw [DistinctKeys, map_fst_set]
  split
  · exact h
  · next hnew =>
    rw [List.pairwise_append]
    refine ⟨h, List.pairwise_singleton _ _, ?_⟩
    intro a ha b hb
    obtain ⟨e, he, rfl⟩ := List.mem_map.mp ha
    obtain rfl := List.mem_singleton.mp hb
    simpa using fun heq => hnew (List.any_eq_true.mpr ⟨e, he, heq⟩)

theorem distinct_foldOnto {kept : Entries} (h : DistinctKeys kept) (es : Entries) :
    DistinctKeys (foldOnto kept es) := by
  induction es generalizing kept with
  | nil => exact h
  | cons e es ih => exact ih (distinct_set e.1 e.2 h)

theorem distinct_fold (es : Entries) : DistinctKeys (fold es) := by
  have hnil : DistinctKeys [] := List.Pairwise.nil
  exact distinct_foldOnto hnil es

/-! ### What the remaining entries are made of -/

theorem mem_set {key value : Value} {es : Entries} {x : Value × Value} (h : x ∈ set key value es) :
    (x.1 = key ∨ ∃ e ∈ es, x.1 = e.1) ∧ (x.2 = value ∨ ∃ e ∈ es, x.2 = e.2) := by
  induction es with
  | nil =>
      obtain rfl := List.mem_singleton.mp h
      exact ⟨.inl rfl, .inl rfl⟩
  | cons e es ih =>
      unfold set at h
      split at h
      · rcases List.mem_cons.mp h with rfl | hx
        · exact ⟨.inr ⟨e, List.mem_cons_self, rfl⟩, .inl rfl⟩
        · exact ⟨.inr ⟨x, List.mem_cons_of_mem e hx, rfl⟩, .inr ⟨x, List.mem_cons_of_mem e hx, rfl⟩⟩
      · rcases List.mem_cons.mp h with rfl | hx
        · exact ⟨.inr ⟨_, List.mem_cons_self, rfl⟩, .inr ⟨_, List.mem_cons_self, rfl⟩⟩
        · obtain ⟨hkey, hvalue⟩ := ih hx
          refine ⟨hkey.imp_right ?_, hvalue.imp_right ?_⟩
          · rintro ⟨y, hy, heq⟩
            exact ⟨y, List.mem_cons_of_mem e hy, heq⟩
          · rintro ⟨y, hy, heq⟩
            exact ⟨y, List.mem_cons_of_mem e hy, heq⟩

theorem forall_foldOnto {P Q : Value → Prop} {kept es : Entries}
    (hkept : ∀ e ∈ kept, P e.1 ∧ Q e.2) (hes : ∀ e ∈ es, P e.1 ∧ Q e.2) :
    ∀ e ∈ foldOnto kept es, P e.1 ∧ Q e.2 := by
  induction es generalizing kept with
  | nil => exact hkept
  | cons e es ih =>
      obtain ⟨hhead, htail⟩ := List.forall_mem_cons.mp hes
      refine ih (fun x hx => ?_) htail
      obtain ⟨hkey, hvalue⟩ := mem_set hx
      constructor
      · rcases hkey with heq | ⟨y, hy, heq⟩
        · exact heq ▸ hhead.1
        · exact heq ▸ (hkept y hy).1
      · rcases hvalue with heq | ⟨y, hy, heq⟩
        · exact heq ▸ hhead.2
        · exact heq ▸ (hkept y hy).2

theorem forall_fold {P Q : Value → Prop} {es : Entries} (h : ∀ e ∈ es, P e.1 ∧ Q e.2) :
    ∀ e ∈ fold es, P e.1 ∧ Q e.2 :=
  forall_foldOnto (List.forall_mem_nil _) h

def weight (weightKey weightValue : Value → Nat) : Entries → Nat
  | [] => 0
  | (k, v) :: es => weightKey k + weightValue v + weight weightKey weightValue es

section Weight

variable (weightKey weightValue : Value → Nat)

theorem weight_set_le (key value : Value) (es : Entries) :
    weight weightKey weightValue (set key value es) ≤
      weight weightKey weightValue es + (weightKey key + weightValue value) := by
  induction es with
  | nil => simp [set, weight]
  | cons e es ih =>
      unfold set
      split <;> simp only [weight] <;> omega

theorem weight_foldOnto_le (kept es : Entries) :
    weight weightKey weightValue (foldOnto kept es) ≤
      weight weightKey weightValue kept + weight weightKey weightValue es := by
  induction es generalizing kept with
  | nil => simp [weight]
  | cons e es ih =>
      have hset := weight_set_le weightKey weightValue e.1 e.2 kept
      have hrest := ih (set e.1 e.2 kept)
      simp only [foldOnto_cons, weight]
      omega

theorem weight_fold_le (es : Entries) :
    weight weightKey weightValue (fold es) ≤ weight weightKey weightValue es := by
  have h := weight_foldOnto_le weightKey weightValue [] es
  rw [weight, Nat.zero_add] at h
  exact h

end Weight

theorem weight_one (es : Entries) : weight (fun _ => 1) (fun _ => 0) es = es.length := by
  induction es with
  | nil => rfl
  | cons e es ih =>
      rw [weight, ih, List.length_cons]
      omega

theorem length_fold_le (es : Entries) : (fold es).length ≤ es.length := by
  rw [← weight_one, ← weight_one]
  exact weight_fold_le _ _ es

theorem set_eq_findIdx? (key value : Value) (es : Entries) :
    set key value es =
      match (es.map (·.1)).findIdx? (· == key) with
      | some place => es.modify place fun e => (e.1, value)
      | none => es ++ [(key, value)] := by
  induction es with
  | nil => rfl
  | cons e es ih =>
      cases h : e.1 == key
      · simp only [set, h, Bool.false_eq_true, if_false, ih, List.map_cons, List.findIdx?_cons]
        cases (es.map (·.1)).findIdx? (· == key) <;> simp
      · simp [set, h, List.findIdx?_cons]

end Entries

/-! ### The index -/

namespace KeyIndex

/-- The index holds the keys of `es` with their places, each under what it feeds. -/
def Covers (index : KeyIndex) (es : Entries) : Prop :=
  ∀ data, index.buckets.getD data [] =
    (es.map (·.1)).zipIdx.filter fun e => e.1.feed = data

theorem covers_empty : empty.Covers [] := by
  intro data
  simp [empty]

/-- A key is looked for in one bucket only, and no equal key lies outside it. -/
theorem Covers.find? {index : KeyIndex} {es : Entries} (h : index.Covers es) (key : Value) :
    index.find? key = (es.map (·.1)).findIdx? (· == key) := by
  have hbucket : ∀ e : Value × Nat,
      (decide (decide (e.1.feed = key.feed) = true ∧ (e.1 == key) = true)) = (e.1 == key) := by
    intro e
    cases heq : e.1 == key
    · simp
    · simp [Value.feed_eq_of_equal heq]
  rw [KeyIndex.find?, bucket, h key.feed, List.find?_filter, List.findIdx?_eq_fst_find?_zipIdx]
  simp only [hbucket]

theorem Covers.insert {index : KeyIndex} {es : Entries} (h : index.Covers es) (key value : Value) :
    (index.insert key es.length).Covers (es ++ [(key, value)]) := by
  intro data
  rw [KeyIndex.insert, Std.HashMap.getD_insert, List.map_append, List.zipIdx_append,
    List.filter_append, ← h data]
  by_cases hdata : key.feed = data
  · subst hdata
    simp [bucket]
  · simp [hdata]

theorem Covers.of_map_fst {index : KeyIndex} {es es' : Entries} (h : index.Covers es)
    (hkeys : es'.map (·.1) = es.map (·.1)) : index.Covers es' := by
  intro data
  rw [hkeys]
  exact h data

end KeyIndex

namespace EntryTable

/-- Adding to a table sets the key among its entries, and the index keeps up. -/
theorem add_spec {table : EntryTable} (h : table.index.Covers table.toList) (key value : Value) :
    (table.add key value).toList = Entries.set key value table.toList ∧
      (table.add key value).index.Covers (table.add key value).toList := by
  have hset := Entries.set_eq_findIdx? key value table.toList
  rw [← h.find? key] at hset
  unfold add
  cases hfind : table.index.find? key with
  | some place =>
      rw [hfind] at hset
      have hlist : (table.entries.modify place fun e => (e.1, value)).toList =
          table.toList.modify place fun e => (e.1, value) := Array.toList_modify
      have hresult := hlist.trans hset.symm
      refine ⟨hresult, h.of_map_fst ?_⟩
      rw [h.find? key] at hfind
      exact (congrArg (List.map (·.1)) hresult).trans (Entries.map_fst_set_of_mem hfind)
  | none =>
      rw [hfind] at hset
      have hlist : (table.entries.push (key, value)).toList = table.toList ++ [(key, value)] :=
        Array.toList_push
      refine ⟨hlist.trans hset.symm, ?_⟩
      show (table.index.insert key table.entries.size).Covers
        (table.entries.push (key, value)).toList
      rw [hlist, ← Array.length_toList]
      exact h.insert key value

theorem foldl_add_spec {table : EntryTable} (h : table.index.Covers table.toList) (es : Entries) :
    let added := es.foldl (fun table e => table.add e.1 e.2) table
    added.toList = Entries.foldOnto table.toList es ∧ added.index.Covers added.toList := by
  induction es generalizing table with
  | nil => exact ⟨rfl, h⟩
  | cons e es ih =>
      obtain ⟨hlist, hcovers⟩ := add_spec h e.1 e.2
      rw [List.foldl_cons, Entries.foldOnto_cons, ← hlist]
      exact ih hcovers

/-- The table keeps the entries that a linear scan keeps. -/
theorem toList_ofList (es : Entries) : (ofList es).toList = Entries.fold es :=
  (foldl_add_spec KeyIndex.covers_empty es).1

theorem covers_ofList (es : Entries) : (ofList es).index.Covers (ofList es).toList :=
  (foldl_add_spec KeyIndex.covers_empty es).2

end EntryTable

end SchemaWire
