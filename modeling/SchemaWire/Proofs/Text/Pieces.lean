import SchemaWire.Text.Split

/-!
Pieces between separators. A separator between two texts keeps their pieces apart, and a text
without one is a piece of its own; so what holds of pieces, and of two texts with a separator
between them if it holds of both, holds of every text.
-/

namespace SchemaWire.Text

variable {sep c : Char} {cs piece front back : List Char} {pieces : List (List Char)}

theorem splitAt_ne_nil (sep : Char) (cs : List Char) : splitAt sep cs ≠ [] := by
  fun_induction splitAt sep cs <;> simp_all

theorem splitAt_cons_of_ne (hc : c ≠ sep) (h : splitAt sep cs = piece :: pieces) :
    splitAt sep (c :: cs) = (c :: piece) :: pieces := by
  rw [splitAt, if_neg hc, h]

theorem splitAt_of_notMem (h : sep ∉ cs) : splitAt sep cs = [cs] := by
  induction cs with
  | nil => rfl
  | cons c cs ih =>
      rw [List.mem_cons, not_or] at h
      exact splitAt_cons_of_ne (Ne.symm h.1) (ih h.2)

theorem splitAt_append_cons (sep : Char) (as bs : List Char) :
    splitAt sep (as ++ sep :: bs) = splitAt sep as ++ splitAt sep bs := by
  induction as with
  | nil => simp [splitAt]
  | cons c as ih =>
      by_cases hc : c = sep
      · simp [splitAt, hc, ih]
      · obtain ⟨piece, pieces, has⟩ := List.exists_cons_of_ne_nil (splitAt_ne_nil sep as)
        rw [has, List.cons_append] at ih
        rw [List.cons_append, splitAt_cons_of_ne hc ih, splitAt_cons_of_ne hc has,
          List.cons_append]

@[elab_as_elim]
theorem separator_induct (sep : Char) {motive : List Char → Prop}
    (piece : ∀ cs, sep ∉ cs → motive cs)
    (join : ∀ as bs, motive as → motive bs → motive (as ++ sep :: bs)) (cs : List Char) :
    motive cs := by
  induction hn : cs.length using Nat.strongRecOn generalizing cs with
  | ind n ih =>
      by_cases h : sep ∈ cs
      · obtain ⟨as, bs, rfl⟩ := List.append_of_mem h
        rw [List.length_append, List.length_cons] at hn
        exact join as bs (ih as.length (by omega) as rfl) (ih bs.length (by omega) bs rfl)
      · exact piece cs h

theorem splitOnce?_append_cons (h : sep ∉ front) :
    splitOnce? sep (front ++ sep :: back) = some (front, back) := by
  induction front with
  | nil => simp [splitOnce?]
  | cons c front ih =>
      rw [List.mem_cons, not_or] at h
      rw [List.cons_append, splitOnce?, if_neg (Ne.symm h.1), ih h.2, Option.map_some]

end SchemaWire.Text
