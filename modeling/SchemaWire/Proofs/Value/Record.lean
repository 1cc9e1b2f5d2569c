import SchemaWire.Value.Basic

/-!
Fields by name: looking them up and setting them. What is found under a name stands there, and where
every name stands once everything is found.
-/

namespace SchemaWire.Fields

theorem get?_of_mem {fields : Fields} (hnodup : (fields.map (·.1)).Nodup) {f : String × Value}
    (hf : f ∈ fields) : fields.get? f.1 = some f.2 := by
  induction fields with
  | nil => cases hf
  | cons g fields ih =>
      rw [List.map_cons, List.nodup_cons] at hnodup
      rcases List.mem_cons.mp hf with rfl | hf
      · rw [get?, if_pos rfl]
      · have hne : g.1 ≠ f.1 := fun heq => hnodup.1 (heq ▸ List.mem_map_of_mem hf)
        rw [get?, if_neg hne]
        exact ih hnodup.2 hf

theorem mem_of_get? {fields : Fields} {name : String} {v : Value}
    (h : fields.get? name = some v) : (name, v) ∈ fields := by
  induction fields with
  | nil => cases h
  | cons f fields ih =>
      rw [get?] at h
      split at h
      · next hname =>
        cases h
        exact hname ▸ List.mem_cons_self
      · exact List.mem_cons_of_mem f (ih h)

theorem mem_names_iff {fields : Fields} {name : String} :
    name ∈ fields.map (·.1) ↔ ∃ v, fields.get? name = some v := by
  induction fields with
  | nil => simp [get?]
  | cons f fields ih =>
      rw [List.map_cons, List.mem_cons, ih, get?]
      by_cases hname : f.1 = name
      · simp [hname]
      · simp [hname, Ne.symm hname]

theorem get?_insert (name : String) (value : Value) (fields : Fields) (n : String) :
    (fields.insert name value).get? n = if name = n then some value else fields.get? n := by
  induction fields with
  | nil => rfl
  | cons f fields ih =>
      rw [insert]
      split
      · next hname =>
        subst hname
        simp only [get?]
        split <;> rfl
      · next hname =>
        rw [get?, get?, ih]
        by_cases hn : f.1 = n
        · rw [if_pos hn, if_pos hn, if_neg fun heq => hname (hn.trans heq.symm)]
        · rw [if_neg hn, if_neg hn]

theorem map_fst_insert (name : String) (value : Value) (fields : Fields) :
    (fields.insert name value).map (·.1) =
      if name ∈ fields.map (·.1) then fields.map (·.1) else fields.map (·.1) ++ [name] := by
  induction fields with
  | nil => rfl
  | cons f fields ih =>
      rw [insert]
      split
      · next hname => simp [hname]
      · next hname =>
        simp only [List.map_cons, ih, List.mem_cons, Ne.symm hname, false_or]
        split <;> rfl

theorem nodup_map_fst_insert {fields : Fields} (h : (fields.map (·.1)).Nodup) (name : String)
    (value : Value) : ((fields.insert name value).map (·.1)).Nodup := by
  rw [map_fst_insert]
  split
  · exact h
  · next hnew =>
    refine List.nodup_append.mpr ⟨h, List.pairwise_singleton _ name, fun a ha b hb heq => ?_⟩
    obtain rfl := List.mem_singleton.mp hb
    exact hnew (heq ▸ ha)

end SchemaWire.Fields
