import SchemaWire.Constraint.Tag
import SchemaWire.Proofs.Text.Pieces
import SchemaWire.Proofs.Text.Words

/-!
Tags joined by a comma. Such a tag says what its two parts say, one after the other, and the first
fault in it is that of its first part, if there is one. What stands between commas is read on its
own, so blanks around it, and pieces of blanks only, can be dealt with one piece at a time.
-/

namespace SchemaWire.Tag

/-- What two tags say together, unless the first is at fault, or else the second. -/
def both (first second : Except ConstraintError Tag) : Except ConstraintError Tag := do
  let s ← first
  let t ← second
  return ⟨s.skip || t.skip, s.declarations ++ t.declarations⟩

def ofText (cs : List Char) : Except ConstraintError Tag := ofEntries (entries cs)

variable {cs front back name : List Char}

theorem empty_both (second : Except ConstraintError Tag) : both (.ok empty) second = second := by
  cases second <;> rfl

theorem both_assoc (first second third : Except ConstraintError Tag) :
    both (both first second) third = both first (both second third) := by
  rcases first with e | s
  · rfl
  rcases second with e | t
  · rfl
  rcases third with e | u
  · rfl
  simp [both, bind, Except.bind, pure, Except.pure, Bool.or_assoc]

/-! ### Entries -/

theorem ofEntries_cons (entry : List Char) (rest : List (List Char)) :
    ofEntries (entry :: rest) = both (ofEntries [entry]) (ofEntries rest) := by
  simp only [ofEntries]
  split
  · cases ofEntries rest <;> rfl
  · cases declaration entry with
    | error e => rfl
    | ok d => cases ofEntries rest <;> rfl

theorem ofEntries_append (as bs : List (List Char)) :
    ofEntries (as ++ bs) = both (ofEntries as) (ofEntries bs) := by
  induction as with
  | nil => exact (empty_both _).symm
  | cons entry as ih =>
      rw [List.cons_append, ofEntries_cons, ih, ← both_assoc, ← ofEntries_cons]

theorem entries_append_comma (as bs : List Char) :
    entries (as ++ ',' :: bs) = entries as ++ entries bs := by
  simp only [entries, Text.splitAt_append_cons, List.map_append, List.filter_append]

theorem ofText_append_comma (as bs : List Char) :
    ofText (as ++ ',' :: bs) = both (ofText as) (ofText bs) := by
  rw [ofText, entries_append_comma, ofEntries_append, ofText, ofText]

/-! ### Blanks -/

theorem comma_notMem_of_allBlank (h : Text.AllBlank cs) : ',' ∉ cs :=
  fun hmem => absurd (h ',' hmem) (by decide)

theorem entries_of_notMem (h : ',' ∉ cs) : entries cs = [Text.trim cs].filter (!·.isEmpty) := by
  rw [entries, Text.splitAt_of_notMem h, List.map_singleton]

theorem ofText_of_notMem (h : ',' ∉ cs) : ofText cs =
    if Text.trim cs = [] then .ok empty
    else if Text.trim cs = ['-'] then .ok ⟨true, []⟩
    else do return ⟨false, [← declaration (Text.trim cs)]⟩ := by
  rw [ofText, entries_of_notMem h]
  by_cases hnil : Text.trim cs = []
  · rw [if_pos hnil, hnil]
    rfl
  · rw [if_neg hnil, List.filter_cons_of_pos (by simpa using hnil), List.filter_nil, ofEntries]
    rfl

theorem entries_append_allBlank (h : Text.AllBlank back) : entries (cs ++ back) = entries cs := by
  induction cs using Text.separator_induct ',' with
  | piece cs hcs =>
      have hall : ',' ∉ cs ++ back := by simp [hcs, comma_notMem_of_allBlank h]
      rw [entries_of_notMem hall, Text.trim_append_allBlank h, ← entries_of_notMem hcs]
  | join as bs _ ih =>
      rw [List.append_assoc, List.cons_append, entries_append_comma, entries_append_comma, ih]

theorem entries_allBlank_append (h : Text.AllBlank front) : entries (front ++ cs) = entries cs := by
  induction cs using Text.separator_induct ',' with
  | piece cs hcs =>
      have hall : ',' ∉ front ++ cs := by simp [hcs, comma_notMem_of_allBlank h]
      rw [entries_of_notMem hall, Text.trim_append_of_allBlank h, ← entries_of_notMem hcs]
  | join as bs ih _ =>
      rw [← List.append_assoc, entries_append_comma, entries_append_comma, ih]

theorem entries_of_allBlank (h : Text.AllBlank cs) : entries cs = [] := by
  rw [← List.append_nil cs, entries_allBlank_append h]
  rfl

/-! ### Equals signs -/

theorem isBlank_equals : Text.isBlank '=' = false := by decide

theorem splitEntry_trim (h : '=' ∉ name) :
    splitEntry (Text.trim (name ++ '=' :: cs)) = (Text.trim name, some (Text.trim cs)) := by
  obtain ⟨front, back, htrim, hsuffix, hname, hargument⟩ :=
    Text.trim_append_cons isBlank_equals name cs
  have hfront : '=' ∉ front := fun hmem => h (hsuffix.subset hmem)
  rw [htrim, splitEntry, Text.splitOnce?_append_cons hfront]
  simp only [hname, hargument]

theorem ofText_equation (hname : ',' ∉ name) (hcs : ',' ∉ cs) :
    ofText (name ++ '=' :: cs) = do
      return ⟨false, [← declaration (Text.trim (name ++ '=' :: cs))]⟩ := by
  have hall : ',' ∉ name ++ '=' :: cs := by simp [hname, hcs]
  have hmem : '=' ∈ Text.trim (name ++ '=' :: cs) := by
    obtain ⟨front, back, htrim, -⟩ := Text.trim_append_cons isBlank_equals name cs
    simp [htrim]
  have hne : Text.trim (name ++ '=' :: cs) ≠ [] := List.ne_nil_of_mem hmem
  have hdash : Text.trim (name ++ '=' :: cs) ≠ ['-'] := by
    intro heq
    rw [heq] at hmem
    exact absurd hmem (by decide)
  rw [ofText_of_notMem hall, if_neg hne, if_neg hdash]

/-- Blanks around the equals sign of a single entry do not count, as its name and its argument are
trimmed. -/
theorem ofText_equation_blank (h : '=' ∉ name) (hname : ',' ∉ name) (hcs : ',' ∉ cs)
    (hfront : Text.AllBlank front) (hback : Text.AllBlank back) :
    ofText (name ++ front ++ '=' :: (back ++ cs)) = ofText (name ++ '=' :: cs) := by
  have hblank : '=' ∉ front := fun hmem => absurd (hfront '=' hmem) (by decide)
  have hequals : '=' ∉ name ++ front := by simp [h, hblank]
  have hcomma : ',' ∉ name ++ front := by simp [hname, comma_notMem_of_allBlank hfront]
  have hcomma' : ',' ∉ back ++ cs := by simp [hcs, comma_notMem_of_allBlank hback]
  rw [ofText_equation hcomma hcomma', ofText_equation hname hcs, declaration, declaration,
    splitEntry_trim hequals, splitEntry_trim h, Text.trim_append_allBlank hfront,
    Text.trim_append_of_allBlank hback]

theorem ofText_blank_equals (h : '=' ∉ name) (hfront : Text.AllBlank front)
    (hback : Text.AllBlank back) :
    ofText (name ++ front ++ '=' :: (back ++ cs)) = ofText (name ++ '=' :: cs) := by
  induction name using Text.separator_induct ',' with
  | join as bs _ ih =>
      have hbs : '=' ∉ bs := fun hmem => h (by simp [hmem])
      have hlast := ih hbs
      simp only [List.append_assoc, List.cons_append, ofText_append_comma] at hlast ⊢
      rw [hlast]
  | piece name hname =>
      induction cs using Text.separator_induct ',' with
      | join as bs ih _ =>
          simp only [← List.append_assoc, ← List.cons_append, ofText_append_comma] at ih ⊢
          rw [ih]
      | piece cs hcs => exact ofText_equation_blank h hname hcs hfront hback

/-! ### Tags -/

/-- With a comma between them two tags are parsed as one that says what they say: it skips the field
if either does, and has the declarations of the first and then those of the second. If the first is
at fault, so is the whole, and if only the second is, its fault is that of the whole. A tag without
a comma is a single entry, trimmed: nothing, a dash or a declaration. Blanks at the ends, around
commas and around the equals sign behind a name make no difference, and neither do entries of blanks
only, wherever they stand. -/
theorem parse_append_comma (a b : String) :
    (parse (a ++ "," ++ b) =
      match parse a, parse b with
      | .error e, _ => .error e
      | .ok _, .error e => .error e
      | .ok s, .ok t => .ok ⟨s.skip || t.skip, s.declarations ++ t.declarations⟩) ∧
    (',' ∉ a.toList → parse a =
      if Text.trim a.toList = [] then .ok empty
      else if Text.trim a.toList = ['-'] then .ok ⟨true, []⟩
      else do return ⟨false, [← declaration (Text.trim a.toList)]⟩) ∧
    ∀ front back : String, Text.AllBlank front.toList → Text.AllBlank back.toList →
      parse (front ++ a ++ back) = parse a ∧
      parse (a ++ front ++ "," ++ back ++ b) = parse (a ++ "," ++ b) ∧
      ('=' ∉ a.toList → parse (a ++ front ++ "=" ++ back ++ b) = parse (a ++ "=" ++ b)) ∧
      parse (front ++ "," ++ b) = parse b ∧ parse (a ++ "," ++ back) = parse a ∧
      parse (a ++ "," ++ front ++ "," ++ b) = parse (a ++ "," ++ b) := by
  have hparse : ∀ text : String, parse text = ofText text.toList := fun _ => rfl
  have hcomma : ",".toList = [','] := rfl
  have hequals : "=".toList = ['='] := rfl
  simp only [hparse, String.toList_append, hcomma, hequals, List.append_assoc,
    List.cons_append, List.nil_append]
  refine ⟨?_, ofText_of_notMem,
    fun front back hfront hback => ⟨?_, ?_, fun hname => ?_, ?_, ?_, ?_⟩⟩
  · rw [ofText_append_comma]
    rcases ofText a.toList with e | s
    · rfl
    · rcases ofText b.toList with e | t <;> rfl
  · rw [ofText, entries_allBlank_append hfront, entries_append_allBlank hback, ofText]
  · rw [← List.append_assoc, ofText, entries_append_comma, entries_append_allBlank hfront,
      entries_allBlank_append hback, ← entries_append_comma, ofText]
  · rw [← List.append_assoc, ofText_blank_equals hname hfront hback]
  · rw [ofText, entries_append_comma, entries_of_allBlank hfront, List.nil_append, ofText]
  · rw [ofText, entries_append_comma, entries_of_allBlank hback, List.append_nil, ofText]
  · rw [ofText, entries_append_comma, entries_append_comma, entries_of_allBlank hfront,
      List.nil_append, ← entries_append_comma, ofText]

/-- A tag of two entries after one that skips the field, with blanks of several kinds around its
parts. Of the two faults behind it the first counts. -/
theorem parse_append_comma_name :
    let a := "- ,\tminlen"
    let b := "2 , contains = a=b"
    let c := "email=yes,positive"
    Text.AllBlank " ".toList ∧ Text.AllBlank "\n".toList ∧ '=' ∉ a.toList ∧
    parse (a ++ " " ++ "=" ++ "\n" ++ b) =
      .ok ⟨true, [⟨"minlen", some "2"⟩, ⟨"contains", some "a=b"⟩]⟩ ∧
    parse (a ++ "=" ++ b ++ "," ++ c) = .error (.unexpectedArgument "email") := by
  intro a b c
  have hfront : Text.AllBlank " ".toList := by decide
  have hback : Text.AllBlank "\n".toList := by decide
  have hname : '=' ∉ a.toList := by decide
  have hparse : parse (a ++ "=" ++ b) =
      .ok ⟨true, [⟨"minlen", some "2"⟩, ⟨"contains", some "a=b"⟩]⟩ := by decide +kernel
  have hfault : parse c = .error (.unexpectedArgument "email") := by decide +kernel
  obtain ⟨-, -, hblank⟩ := parse_append_comma a b
  obtain ⟨-, -, hequals, -⟩ := hblank " " "\n" hfront hback
  obtain ⟨hjoined, -⟩ := parse_append_comma (a ++ "=" ++ b) c
  rw [hparse, hfault] at hjoined
  exact ⟨hfront, hback, hname, (hequals hname).trans hparse, hjoined⟩

end SchemaWire.Tag
