import Mathlib.Data.Finset.Card
import SchemaWire.Proofs.Value.Equivalence

/-!
Records as finite maps. A record that is put together by setting one name after the other has every
name once, in the order in which the names were first set, each with the value that it was set to
last. That no name stands there twice is what makes equality of such records a matter of the names
alone, whatever the order of their fields.
-/

namespace SchemaWire.Fields

/-- The fields of the record in which names are set to values, one after the other. -/
def ofList (steps : List (String × Value)) : Fields :=
  steps.foldl (fun fields f => fields.insert f.1 f.2) []

variable {steps : List (String × Value)}

theorem ofList_concat (steps : List (String × Value)) (f : String × Value) :
    ofList (steps ++ [f]) = (ofList steps).insert f.1 f.2 :=
  List.foldl_concat ..

theorem get?_ofList (steps : List (String × Value)) (name : String) :
    (ofList steps).get? name = steps.reverse.lookup name := by
  induction steps using List.reverseRecOn with
  | nil => rfl
  | append_singleton steps f ih =>
      rw [ofList_concat, get?_insert, ih, List.reverse_concat, List.lookup_cons]
      by_cases hname : f.1 = name
      · simp [hname]
      · rw [if_neg hname, beq_eq_false_iff_ne.mpr (Ne.symm hname)]

theorem map_fst_ofList (steps : List (String × Value)) :
    (ofList steps).map (·.1) = (steps.map (·.1)).eraseDups := by
  induction steps using List.reverseRecOn with
  | nil => rfl
  | append_singleton steps f ih =>
      rw [ofList_concat, map_fst_insert, ih, List.map_append, List.eraseDups_append]
      by_cases hname : f.1 ∈ steps.map (·.1)
      · simp [hname, List.removeAll]
      · simp [hname, List.removeAll, List.eraseDups_cons]

theorem nodup_map_fst_ofList (steps : List (String × Value)) :
    ((ofList steps).map (·.1)).Nodup := by
  induction steps using List.reverseRecOn with
  | nil => exact List.nodup_nil
  | append_singleton steps f ih =>
      rw [ofList_concat]
      exact nodup_map_fst_insert ih f.1 f.2

theorem mem_map_fst_ofList {name : String} :
    name ∈ (ofList steps).map (·.1) ↔ name ∈ steps.map (·.1) := by
  rw [map_fst_ofList, List.mem_eraseDups]

theorem length_ofList (steps : List (String × Value)) :
    (ofList steps).length = (steps.map (·.1)).toFinset.card := by
  have hsame : (steps.map (·.1)).toFinset = ((ofList steps).map (·.1)).toFinset :=
    List.toFinset.ext fun _ => mem_map_fst_ofList.symm
  rw [hsame, List.toFinset_card_of_nodup (nodup_map_fst_ofList steps), List.length_map]

theorem mem_of_mem_ofList {f : String × Value} (h : f ∈ ofList steps) : f ∈ steps := by
  have hget := get?_of_mem (nodup_map_fst_ofList steps) h
  rw [get?_ofList] at hget
  obtain ⟨front, back, hsteps, -⟩ := List.lookup_eq_some_iff.mp hget
  rw [← List.mem_reverse, hsteps]
  simp

theorem wellFormed_ofList (h : ∀ f ∈ steps, f.2.WellFormed) :
    (Value.record (ofList steps)).WellFormed :=
  .record (nodup_map_fst_ofList steps) fun f hf => h f (mem_of_mem_ofList hf)

/-- Records are finite maps. Whatever names are set to whatever values, every name stands there
once, in the order in which the names were first set; what is found under a name is the value that
it was set to last, and nothing if it was never set; and the size is the number of different names.
Two records that are put together from well-formed values are equal exactly if under every name
they have equal values, or neither has one. -/
theorem ofList_finite_map (steps : List (String × Value)) :
    ((ofList steps).map (·.1)).Nodup ∧
    (∀ name, (ofList steps).get? name = steps.reverse.lookup name) ∧
    (∀ name, (ofList steps).get? name = none ↔ name ∉ steps.map (·.1)) ∧
    (ofList steps).map (·.1) = (steps.map (·.1)).eraseDups ∧
    (ofList steps).length = (steps.map (·.1)).toFinset.card ∧
    ∀ steps' : List (String × Value), (∀ f ∈ steps, f.2.WellFormed) →
      (∀ f ∈ steps', f.2.WellFormed) →
      ((Value.record (ofList steps) == Value.record (ofList steps')) = true ↔
        ∀ name, ((ofList steps).get? name == (ofList steps').get? name) = true) := by
  refine ⟨nodup_map_fst_ofList steps, get?_ofList steps, fun name => ?_, map_fst_ofList steps,
    length_ofList steps, fun steps' hsteps hsteps' => ?_⟩
  · rw [← mem_map_fst_ofList, mem_names_iff, ← Option.isSome_iff_exists,
      Option.not_isSome_iff_eq_none]
  · exact Value.equates_wellFormed.record_iff (wellFormed_ofList hsteps).parts
      (wellFormed_ofList hsteps').parts

/-- A record with a name that is set twice around a map, and one with the same names the other way
round and the entries of the map in another order. -/
theorem ofList_finite_map_tags :
    let x : Value × Value := (.text "x", .flag true)
    let y : Value × Value := (.text "y", .absent)
    let steps : List (String × Value) :=
      [("Note", .text "old"), ("Tags", .map [x, y]), ("Note", .absent)]
    let steps' : List (String × Value) := [("Tags", .map [y, x]), ("Note", .absent)]
    (∀ f ∈ steps, f.2.WellFormed) ∧ (∀ f ∈ steps', f.2.WellFormed) ∧
    (ofList steps).map (·.1) = ["Note", "Tags"] ∧ (ofList steps').map (·.1) = ["Tags", "Note"] ∧
    (ofList steps).get? "Note" = some .absent ∧
    ∀ name, ((ofList steps).get? name == (ofList steps').get? name) = true := by
  intro x y steps steps'
  have hx : x.1.WellFormed ∧ x.2.WellFormed := ⟨.text "x", .flag true⟩
  have hy : y.1.WellFormed ∧ y.2.WellFormed := ⟨.text "y", .absent⟩
  have hxy : (Value.map [x, y]).WellFormed :=
    .map (List.pairwise_pair.mpr rfl) (by simp [hx, hy]) (by simp [hx, hy])
  have hyx : (Value.map [y, x]).WellFormed :=
    .map (List.pairwise_pair.mpr rfl) (by simp [hx, hy]) (by simp [hx, hy])
  have hsteps : ∀ f ∈ steps, f.2.WellFormed := by
    simp [steps, hxy, Value.WellFormed.text, Value.WellFormed.absent]
  have hsteps' : ∀ f ∈ steps', f.2.WellFormed := by
    simp [steps', hyx, Value.WellFormed.absent]
  obtain ⟨-, hget, -, hnames, -, hequal⟩ := ofList_finite_map steps
  obtain ⟨-, -, -, hnames', -⟩ := ofList_finite_map steps'
  exact ⟨hsteps, hsteps', hnames, hnames', hget "Note",
    (hequal steps' hsteps hsteps').mp (by decide +kernel)⟩

end SchemaWire.Fields
