import Mathlib.Data.List.TakeWhile
import SchemaWire.Text.Split

/-!
Words between blanks. A text is cut into words in one way only, blanks at its ends do not count, and
a text of one word is that word with blanks around it.
-/

namespace SchemaWire.Text

def AllBlank (cs : List Char) : Prop := ∀ c ∈ cs, isBlank c = true

instance (cs : List Char) : Decidable (AllBlank cs) :=
  decidable_of_iff (cs.all isBlank = true) List.all_eq_true

structure IsWord (cs : List Char) : Prop where
  ne_nil : cs ≠ []
  solid : ∀ c ∈ cs, isBlank c = false

/-- The text is made of the words, in order, with blanks between them and perhaps around them. -/
inductive Separated : List Char → List (List Char) → Prop where
  | nil {gap : List Char} : AllBlank gap → Separated gap []
  | cons {gap word rest : List Char} {words : List (List Char)} :
      AllBlank gap → IsWord word → (∀ c ∈ rest.head?, isBlank c = true) → Separated rest words →
      Separated (gap ++ (word ++ rest)) (word :: words)

variable {cs gap back word rest : List Char} {ws : List (List Char)} {c : Char}

theorem words_of_blank (h : isBlank c = true) : words (c :: cs) = words cs := if_pos h

theorem words_append_of_allBlank (h : AllBlank gap) : words (gap ++ cs) = words cs := by
  induction gap with
  | nil => rfl
  | cons c gap ih =>
      obtain ⟨hc, hgap⟩ := List.forall_mem_cons.mp h
      rw [List.cons_append, words_of_blank hc, ih hgap]

theorem words_cons_blank (hc : isBlank c = false) (hrest : ∀ d ∈ rest.head?, isBlank d = true) :
    words (c :: rest) = [c] :: words rest := by
  conv => lhs; unfold words
  rw [hc, if_neg Bool.false_ne_true]
  cases rest with
  | nil => rfl
  | cons d rest =>
      have hd : isBlank d = true := hrest d rfl
      cases words (d :: rest) with
      | nil => rfl
      | cons w ws => exact if_pos hd

theorem words_cons_solid {d : Char} (hc : isBlank c = false) (hd : isBlank d = false)
    (h : words (d :: rest) = word :: ws) : words (c :: d :: rest) = (c :: word) :: ws := by
  conv => lhs; unfold words
  rw [hc, if_neg Bool.false_ne_true, h]
  exact if_neg (Bool.eq_false_iff.mp hd)

theorem words_append_of_isWord (h : IsWord word) (hrest : ∀ c ∈ rest.head?, isBlank c = true) :
    words (word ++ rest) = word :: words rest := by
  obtain ⟨hne, hsolid⟩ := h
  induction word with
  | nil => exact (hne rfl).elim
  | cons c word ih =>
      obtain ⟨hc, hword⟩ := List.forall_mem_cons.mp hsolid
      cases word with
      | nil => exact words_cons_blank hc hrest
      | cons d word =>
          have hd : isBlank d = false := hword d List.mem_cons_self
          exact words_cons_solid hc hd (ih (List.cons_ne_nil d word) hword)

theorem words_of_separated (h : Separated cs ws) : words cs = ws := by
  induction h with
  | @nil gap hgap =>
      have hwords : words (gap ++ []) = words [] := words_append_of_allBlank hgap
      rwa [List.append_nil] at hwords
  | cons hgap hword hrest _ ih =>
      rw [words_append_of_allBlank hgap, words_append_of_isWord hword hrest, ih]

theorem Separated.cons_blank (hc : isBlank c = true) (h : Separated cs ws) :
    Separated (c :: cs) ws := by
  cases h with
  | nil hgap => exact .nil (List.forall_mem_cons.mpr ⟨hc, hgap⟩)
  | cons hgap hword hrest h =>
      exact .cons (List.forall_mem_cons.mpr ⟨hc, hgap⟩) hword hrest h

theorem Separated.cons_solid (hc : isBlank c = false) (h : Separated cs ws) :
    ∃ ws', Separated (c :: cs) ws' := by
  have hnone : AllBlank [] := List.forall_mem_nil _
  have hone : IsWord [c] := ⟨List.cons_ne_nil c [], List.forall_mem_singleton.mpr hc⟩
  -- The character is a word of its own if a blank follows, and begins the next word if not.
  cases h with
  | nil hgap =>
      refine ⟨[[c]], .cons hnone hone (fun d hd => ?_) (.nil hgap)⟩
      exact hgap d (List.mem_of_mem_head? hd)
  | @cons gap word rest words hgap hword hrest h =>
      cases gap with
      | nil =>
          have hword' : IsWord (c :: word) :=
            ⟨List.cons_ne_nil c word, List.forall_mem_cons.mpr ⟨hc, hword.solid⟩⟩
          exact ⟨(c :: word) :: words, .cons hnone hword' hrest h⟩
      | cons b gap =>
          refine ⟨[c] :: word :: words,
            .cons hnone hone (fun d hd => ?_) (.cons hgap hword hrest h)⟩
          obtain rfl := Option.some.inj hd
          exact hgap b List.mem_cons_self

theorem separated_words (cs : List Char) : Separated cs (words cs) := by
  have hsome : ∃ ws, Separated cs ws := by
    induction cs with
    | nil => exact ⟨[], .nil (List.forall_mem_nil _)⟩
    | cons c cs ih =>
        obtain ⟨ws, h⟩ := ih
        cases hc : isBlank c with
        | true => exact ⟨ws, h.cons_blank hc⟩
        | false => exact h.cons_solid hc
  obtain ⟨ws, h⟩ := hsome
  rw [words_of_separated h]
  exact h

/-! ### Trimming -/

theorem AllBlank.reverse (h : AllBlank gap) : AllBlank gap.reverse :=
  fun c hc => h c (List.mem_reverse.mp hc)

theorem exists_append_dropWhile (cs : List Char) :
    ∃ gap, AllBlank gap ∧ cs = gap ++ cs.dropWhile isBlank :=
  ⟨cs.takeWhile isBlank, fun _ => List.mem_takeWhile_imp, List.takeWhile_append_dropWhile.symm⟩

theorem exists_append_trim (cs : List Char) :
    ∃ gap back, AllBlank gap ∧ AllBlank back ∧ cs = gap ++ (trim cs ++ back) := by
  obtain ⟨gap, hgap, hfront⟩ := exists_append_dropWhile cs
  obtain ⟨back, hback, hrest⟩ := exists_append_dropWhile (cs.dropWhile isBlank).reverse
  refine ⟨gap, back.reverse, hgap, hback.reverse, ?_⟩
  rw [trim, ← List.reverse_append, ← hrest, List.reverse_reverse]
  exact hfront

theorem trim_append_of_allBlank (h : AllBlank gap) : trim (gap ++ cs) = trim cs := by
  rw [trim, List.dropWhile_append_of_pos h, trim]

theorem dropWhile_append_cons (hc : isBlank c = false) :
    (cs ++ c :: rest).dropWhile isBlank = cs.dropWhile isBlank ++ c :: rest := by
  rw [List.dropWhile_append, List.dropWhile_cons_of_neg (Bool.eq_false_iff.mp hc)]
  split
  · next hnone => rw [List.isEmpty_iff.mp hnone, List.nil_append]
  · rfl

theorem trim_append_allBlank (h : AllBlank back) : trim (cs ++ back) = trim cs := by
  rw [trim, trim, List.dropWhile_append]
  split
  · next hnone =>
    rw [List.isEmpty_iff.mp hnone, List.dropWhile_eq_nil_iff.mpr h]
  · rw [List.reverse_append, List.dropWhile_append_of_pos h.reverse]

/-- Around a character that is no blank, a text is trimmed in front of it and behind it. -/
theorem trim_append_cons (hc : isBlank c = false) (cs rest : List Char) :
    ∃ front back, trim (cs ++ c :: rest) = front ++ c :: back ∧ front <:+ cs ∧
      trim front = trim cs ∧ trim back = trim rest := by
  obtain ⟨gap, hgap, hfront⟩ := exists_append_dropWhile cs
  obtain ⟨gap', hgap', hback⟩ := exists_append_dropWhile rest.reverse
  have hrest : rest = (rest.reverse.dropWhile isBlank).reverse ++ gap'.reverse := by
    rw [← List.reverse_append, ← hback, List.reverse_reverse]
  refine ⟨cs.dropWhile isBlank, (rest.reverse.dropWhile isBlank).reverse, ?_,
    List.dropWhile_suffix isBlank, ?_, ?_⟩
  · rw [trim, dropWhile_append_cons hc, List.reverse_append, List.reverse_cons, List.append_assoc,
      List.singleton_append, dropWhile_append_cons hc]
    simp
  · rw [hfront, trim_append_of_allBlank hgap, ← hfront]
  · rw [hrest, trim_append_allBlank hgap'.reverse, ← hrest]

theorem Separated.append_blank (h : Separated cs ws) (hback : AllBlank back) :
    Separated (cs ++ back) ws := by
  induction h with
  | nil hgap => exact .nil (List.forall_mem_append.mpr ⟨hgap, hback⟩)
  | @cons gap word rest words hgap hword hrest _ ih =>
      rw [List.append_assoc, List.append_assoc]
      refine .cons hgap hword (fun c hc => ?_) ih
      cases rest with
      | nil => exact hback c (List.mem_of_mem_head? hc)
      | cons d rest => exact hrest c hc

theorem words_trim (cs : List Char) : words (trim cs) = words cs := by
  obtain ⟨gap, back, hgap, hback, hcs⟩ := exists_append_trim cs
  have hmiddle := words_of_separated ((separated_words (trim cs)).append_blank hback)
  rw [hcs, words_append_of_allBlank hgap, ← hcs, hmiddle]

theorem IsWord.reverse (h : IsWord word) : IsWord word.reverse where
  ne_nil := List.reverse_ne_nil_iff.mpr h.ne_nil
  solid c hc := h.solid c (List.mem_reverse.mp hc)

theorem IsWord.dropWhile (h : IsWord word) : (word ++ rest).dropWhile isBlank = word ++ rest := by
  cases word with
  | nil => exact (h.ne_nil rfl).elim
  | cons c word =>
      have hc : ¬ isBlank c = true := Bool.eq_false_iff.mp (h.solid c List.mem_cons_self)
      exact List.dropWhile_cons_of_neg hc

theorem trim_of_separated_singleton (h : Separated cs [word]) : trim cs = word := by
  cases h with
  | @cons gap _ back _ hgap hword _ hrest =>
      cases hrest with
      | nil hback =>
          have hend : (word.reverse ++ []).dropWhile isBlank = word.reverse ++ [] :=
            hword.reverse.dropWhile
          rw [List.append_nil] at hend
          rw [trim, List.dropWhile_append_of_pos hgap, hword.dropWhile, List.reverse_append,
            List.dropWhile_append_of_pos hback.reverse, hend, List.reverse_reverse]

theorem IsWord.trim (h : IsWord word) : trim word = word := by
  have hone : Separated word [word] := by
    have hnone : AllBlank [] := List.forall_mem_nil _
    have happend := Separated.cons hnone h (by simp) (.nil hnone)
    rwa [List.append_nil] at happend
  exact trim_of_separated_singleton hone

theorem Separated.isWord (h : Separated cs ws) : ∀ word ∈ ws, IsWord word := by
  induction h with
  | nil => exact List.forall_mem_nil _
  | cons _ hword _ _ ih => exact List.forall_mem_cons.mpr ⟨hword, ih⟩

theorem trim_eq_nil_iff : trim cs = [] ↔ words cs = [] := by
  constructor
  · intro h
    rw [← words_trim, h]
    rfl
  · intro h
    have hblank := separated_words cs
    rw [h] at hblank
    cases hblank with
    | nil hgap =>
        rw [trim, List.dropWhile_eq_nil_iff.mpr hgap]
        rfl

end SchemaWire.Text
