import SchemaWire.Source.Identifier

/-!
Which names and which paths can be spelled out in emitted source. A name has to be an ASCII
identifier that is not reserved. A path is made of ASCII identifiers with double colons between
them, and perhaps in front of them; what is cut at double colons is joined by them again.
-/

namespace SchemaWire

namespace Identifier

def IsAscii : List Char → Prop
  | [] => False
  | c :: cs => (c = '_' ∨ c.isAlpha = true) ∧ ∀ d ∈ cs, d = '_' ∨ d.isAlphanum = true

def Usable (name : String) : Prop :=
  IsAscii name.toList ∧ name ∉ ["self", "Self", "super", "crate", "_"]

variable {cs : List Char}

theorem isWellFormed_iff : isWellFormed cs = true ↔ IsAscii cs := by
  cases cs with
  | nil => simp [isWellFormed, IsAscii]
  | cons c cs => simp [isWellFormed, IsAscii, isHead, isTail]

instance (name : String) : Decidable (Usable name) :=
  decidable_of_iff (isWellFormed name.toList = true ∧ name ∉ reserved)
    (and_congr_left' isWellFormed_iff)

theorem exists_ofName_iff {name : String} : (∃ id, ofName name = .ok id) ↔ Usable name := by
  have hreserved : reserved.contains name = true ↔ name ∈ reserved := List.contains_iff_mem
  rw [Usable, ← isWellFormed_iff, ← reserved, ← hreserved]
  unfold ofName
  cases isWellFormed name.toList <;> cases reserved.contains name <;> simp

theorem IsAscii.colon_notMem (h : IsAscii cs) : ':' ∉ cs := by
  cases cs with
  | nil => exact List.not_mem_nil
  | cons c cs =>
      rintro (_ | ⟨_, hmem⟩)
      · exact absurd h.1 (by decide)
      · exact absurd (h.2 ':' hmem) (by decide)

end Identifier

namespace Path

/-- The text is made of segments with double colons between them: one at least, each an ASCII
identifier, but not a lone underscore. -/
def Joins (segments : List (List Char)) (text : List Char) : Prop :=
  segments ≠ [] ∧ (∀ segment ∈ segments, Identifier.IsAscii segment ∧ segment ≠ ['_']) ∧
    text = [':', ':'].intercalate segments

/-- The text is a path: joined segments, perhaps with double colons in front of them. -/
def IsPath (text : List Char) : Prop :=
  ∃ segments, Joins segments text ∨ ∃ rest, text = ':' :: ':' :: rest ∧ Joins segments rest

variable {cs piece : List Char} {rest : List (List Char)} {c : Char}

theorem pieces_cons_of_ne (hc : c ≠ ':') (h : pieces cs = piece :: rest) :
    pieces (c :: cs) = (c :: piece) :: rest := by
  rw [pieces, h]
  rintro cs' rfl
  simp_all

theorem pieces_append_colons (h : ':' ∉ piece) :
    pieces (piece ++ ':' :: ':' :: cs) = piece :: pieces cs := by
  induction piece with
  | nil => rfl
  | cons c piece ih =>
      rw [List.mem_cons, not_or] at h
      exact pieces_cons_of_ne (Ne.symm h.1) (ih h.2)

theorem pieces_of_notMem (h : ':' ∉ piece) : pieces piece = [piece] := by
  induction piece with
  | nil => rfl
  | cons c piece ih =>
      rw [List.mem_cons, not_or] at h
      exact pieces_cons_of_ne (Ne.symm h.1) (ih h.2)

theorem pieces_intercalate {segments : List (List Char)} (hne : segments ≠ [])
    (h : ∀ segment ∈ segments, ':' ∉ segment) :
    pieces ([':', ':'].intercalate segments) = segments := by
  induction segments with
  | nil => exact (hne rfl).elim
  | cons segment segments ih =>
      obtain ⟨hsegment, hrest⟩ := List.forall_mem_cons.mp h
      cases segments with
      | nil =>
          rw [List.intercalate_singleton]
          exact pieces_of_notMem hsegment
      | cons next segments =>
          have hnext := ih (List.cons_ne_nil next segments) hrest
          rw [List.intercalate_cons_cons, List.append_assoc]
          exact (pieces_append_colons hsegment).trans (congrArg _ hnext)

theorem pieces_ne_nil (cs : List Char) : pieces cs ≠ [] := by
  fun_induction pieces cs <;> simp_all

theorem intercalate_pieces (cs : List Char) : [':', ':'].intercalate (pieces cs) = cs := by
  fun_induction pieces cs with
  | case1 => rfl
  | case2 cs ih =>
      obtain ⟨piece, rest, hpieces⟩ := List.exists_cons_of_ne_nil (pieces_ne_nil cs)
      rw [hpieces] at ih ⊢
      rw [List.intercalate_cons_cons, ih]
      rfl
  | case3 c cs hc hnil => exact (pieces_ne_nil cs hnil).elim
  | case4 c cs hc piece rest hpieces ih =>
      rw [hpieces] at ih
      rw [← ih]
      cases rest with
      | nil => rw [List.intercalate_singleton, List.intercalate_singleton]
      | cons next rest => rw [List.intercalate_cons_cons, List.intercalate_cons_cons]; rfl

theorem isSegment_iff : isSegment piece = true ↔ Identifier.IsAscii piece ∧ piece ≠ ['_'] := by
  rw [isSegment, Bool.and_eq_true, Identifier.isWellFormed_iff, decide_eq_true_eq]

theorem exists_joins_iff : (∃ segments, Joins segments cs) ↔
    ∀ piece ∈ pieces cs, isSegment piece = true := by
  simp only [isSegment_iff]
  constructor
  · rintro ⟨segments, hne, hsegments, rfl⟩
    rwa [pieces_intercalate hne fun segment hsegment => (hsegments segment hsegment).1.colon_notMem]
  · intro h
    exact ⟨pieces cs, pieces_ne_nil cs, h, (intercalate_pieces cs).symm⟩

theorem Joins.ne_colon {segments : List (List Char)} (h : Joins segments cs) (tail : List Char) :
    cs ≠ ':' :: tail := by
  obtain ⟨hne, hsegments, rfl⟩ := h
  obtain ⟨segment, segments, rfl⟩ := List.exists_cons_of_ne_nil hne
  have hfirst := (hsegments segment List.mem_cons_self).1
  cases segment with
  | nil => exact hfirst.elim
  | cons c segment =>
      have hc : c ≠ ':' := fun heq => hfirst.colon_notMem (heq ▸ List.mem_cons_self)
      cases segments with
      | nil => simp [hc]
      | cons next segments => simp [List.intercalate_cons_cons, hc]

theorem parse_of_absolute {text : String} {rest : List Char}
    (h : text.toList = ':' :: ':' :: rest) :
    (∃ p, parse text = .ok p) ↔ ∀ piece ∈ pieces rest, isSegment piece = true := by
  simp only [parse, h]
  split <;> simp_all

theorem parse_of_relative {text : String} (h : ∀ rest, text.toList ≠ ':' :: ':' :: rest) :
    (∃ p, parse text = .ok p) ↔ ∀ piece ∈ pieces text.toList, isSegment piece = true := by
  have hrelative : parse text = if (pieces text.toList).all isSegment then
      .ok ⟨false, (pieces text.toList).map String.ofList⟩ else .error (.invalidRuntime text) := by
    unfold parse
    split
    rename_i heq
    split at heq
    · next hrest => exact (h _ hrest).elim
    · cases heq
      rfl
  rw [hrelative]
  split <;> simp_all

theorem exists_parse_iff {text : String} : (∃ p, parse text = .ok p) ↔ IsPath text.toList := by
  by_cases habsolute : ∃ rest, text.toList = ':' :: ':' :: rest
  · obtain ⟨rest, hrest⟩ := habsolute
    rw [parse_of_absolute hrest, ← exists_joins_iff, hrest]
    refine exists_congr fun segments => ⟨fun h => .inr ⟨rest, rfl, h⟩, ?_⟩
    rintro (h | ⟨rest', hsame, h⟩)
    · exact (h.ne_colon _ rfl).elim
    · cases hsame
      exact h
  · rw [not_exists] at habsolute
    rw [parse_of_relative habsolute, ← exists_joins_iff]
    refine exists_congr fun segments => ⟨.inl, ?_⟩
    rintro (h | ⟨rest, htext, -⟩)
    · exact h
    · exact (habsolute rest htext).elim

end Path

end SchemaWire
