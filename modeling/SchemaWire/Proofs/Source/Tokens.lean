import SchemaWire.Source.Token

/-!
What stands where in emitted source.

Tokens occur in source next to each other, at its top or inside a group. Which words stand before a
dot, and which names after double colons, is seen by going through the tokens with the place that
was reached: behind a word, behind one or two joined colons, or elsewhere. Going through two lists
of tokens, one written behind the other, is going through the first and then, from where it ends,
through the second, so each function that lays out tokens is looked at by itself.
-/

namespace SchemaWire.Token

/-! ### Occurrences -/

/-- The tokens of `part` stand next to each other somewhere in a list of tokens, at its top or
inside a group. -/
inductive Occurs (part : List Token) : List Token → Prop where
  | here {ts : List Token} : part <+: ts → Occurs part ts
  | later {t : Token} {ts : List Token} : Occurs part ts → Occurs part (t :: ts)
  | inside {d : Delimiter} {inner ts : List Token} :
      Occurs part inner → Occurs part (.group d inner :: ts)

namespace Occurs

variable {part : List Token} {a b ts : List Token}

theorem append_left (a : List Token) (h : Occurs part b) : Occurs part (a ++ b) := by
  induction a with
  | nil => exact h
  | cons t a ih => exact .later ih

theorem append_right (b : List Token) (h : Occurs part a) : Occurs part (a ++ b) := by
  induction h with
  | here h => exact .here (h.trans (List.prefix_append _ _))
  | later _ ih => exact .later ih
  | inside h _ => exact .inside h

theorem flatMap {α : Type} {f : α → List Token} {items : List α} {x : α} (hx : x ∈ items)
    (h : Occurs part (f x)) : Occurs part (items.flatMap f) := by
  obtain ⟨front, back, rfl⟩ := List.append_of_mem hx
  rw [List.flatMap_append, List.flatMap_cons]
  exact (h.append_right _).append_left _

theorem commas {items : List (List Token)} {item : List Token} (hitem : item ∈ items)
    (h : Occurs part item) : Occurs part (commas items) := by
  unfold Token.commas
  induction items with
  | nil => cases hitem
  | cons first items ih =>
      cases items with
      | nil =>
          obtain rfl := List.mem_singleton.mp hitem
          simpa using h
      | cons next items =>
          rw [List.intercalate_cons_cons]
          rcases List.mem_cons.mp hitem with rfl | hitem
          · exact (h.append_right _).append_right _
          · exact (ih hitem).append_left _

theorem of_prefix {start : List Token} (hstart : start <+: part) (h : Occurs part ts) :
    Occurs start ts := by
  induction h with
  | here h => exact .here (hstart.trans h)
  | later _ ih => exact .later ih
  | inside _ ih => exact .inside ih

theorem nil_iff : Occurs part [] ↔ part = [] := by
  constructor
  · rintro ⟨h⟩
    exact List.prefix_nil.mp h
  · rintro rfl
    exact .here (List.prefix_refl _)

theorem group_iff {d : Delimiter} {inner : List Token} : Occurs part (.group d inner :: ts) ↔
    part <+: .group d inner :: ts ∨ Occurs part inner ∨ Occurs part ts := by
  constructor
  · rintro (h | h | h)
    · exact .inl h
    · exact .inr (.inr h)
    · exact .inr (.inl h)
  · rintro (h | h | h)
    · exact .here h
    · exact .inside h
    · exact .later h

theorem cons_iff {t : Token} (ht : ∀ d inner, t ≠ .group d inner) :
    Occurs part (t :: ts) ↔ part <+: t :: ts ∨ Occurs part ts := by
  constructor
  · rintro (h | h | h)
    · exact .inl h
    · exact .inr h
    · exact (ht _ _ rfl).elim
  · rintro (h | h)
    · exact .here h
    · exact .later h

end Occurs

/-! ### Going through tokens -/

/-- The place that was reached among tokens. -/
inductive Place where
  | word (w : String)
  | colon
  | colons
  | other
  deriving DecidableEq

def Place.next (p : Place) : Token → Place
  | .word w => .word w
  | .mark c joint =>
    if c = ':' then if joint then .colon else if p = .colon then .colons else .other else .other
  | _ => .other

def Place.after (p : Place) (ts : List Token) : Place := ts.foldl Place.next p

section Permitted

variable (receivers segments : String → Prop)

mutual

/-- From a place, dots follow only receivers among the words, and double colons only segments. -/
def Permitted (p : Place) : List Token → Prop
  | [] => True
  | t :: ts => PermittedToken p t ∧ Permitted (p.next t) ts

def PermittedToken (p : Place) : Token → Prop
  | .word name => p = .colons → segments name
  | .mark c _ => c = '.' → ∀ w, p = .word w → receivers w
  | .literal _ => True
  | .group _ inner => Permitted .other inner

end

/-- Permitted wherever it is written, except right behind double colons; and it does not end in
them. -/
structure Standalone (ts : List Token) : Prop where
  permitted : ∀ p : Place, p ≠ .colons → Permitted receivers segments p ts
  ends : ∀ p : Place, p ≠ .colons → p.after ts ≠ .colons

end Permitted

variable {receivers segments : String → Prop} {p : Place} {a b inner ts : List Token}

theorem receiver_of_occurs {w : String} (h : Permitted receivers segments p ts)
    (hw : Occurs [.word w, sign '.'] ts) : receivers w := by
  induction hw generalizing p with
  | here hhere =>
      obtain ⟨rest, rfl⟩ := hhere
      exact h.2.1 rfl w rfl
  | later _ ih => exact ih h.2
  | inside _ ih => exact ih h.1

theorem segment_of_occurs {name : String} (h : Permitted receivers segments p ts)
    (hname : Occurs (colons ++ [.word name]) ts) : segments name := by
  induction hname generalizing p with
  | here hhere =>
      obtain ⟨rest, rfl⟩ := hhere
      exact h.2.2.1 rfl
  | later _ ih => exact ih h.2
  | inside _ ih => exact ih h.1

/-! ### Lists written one behind the other -/

@[simp] theorem after_nil : p.after [] = p := rfl

@[simp] theorem after_cons {t : Token} : p.after (t :: ts) = (p.next t).after ts := rfl

@[simp] theorem after_append : p.after (a ++ b) = (p.after a).after b := List.foldl_append

@[simp] theorem next_word {w : String} : p.next (.word w) = .word w := rfl

@[simp] theorem next_literal {l : String} : p.next (.literal l) = .other := rfl

@[simp] theorem next_group {d : Delimiter} : p.next (.group d inner) = .other := rfl

@[simp] theorem permitted_nil : Permitted receivers segments p [] := trivial

@[simp] theorem permitted_cons {t : Token} : Permitted receivers segments p (t :: ts) ↔
    PermittedToken receivers segments p t ∧ Permitted receivers segments (p.next t) ts := Iff.rfl

@[simp] theorem permitted_append : Permitted receivers segments p (a ++ b) ↔
    Permitted receivers segments p a ∧ Permitted receivers segments (p.after a) b := by
  induction a generalizing p with
  | nil => simp
  | cons t a ih => simp [ih, and_assoc]

@[simp] theorem permittedToken_word {name : String} :
    PermittedToken receivers segments p (.word name) ↔ (p = .colons → segments name) := Iff.rfl

@[simp] theorem permittedToken_literal {l : String} :
    PermittedToken receivers segments p (.literal l) := trivial

@[simp] theorem permittedToken_group {d : Delimiter} :
    PermittedToken receivers segments p (.group d inner) ↔
      Permitted receivers segments .other inner := Iff.rfl

@[simp] theorem next_mark {c : Char} {joint : Bool} (h : c ≠ ':') :
    p.next (.mark c joint) = .other := by
  simp [Place.next, h]

@[simp] theorem permittedToken_mark {c : Char} {joint : Bool} (h : c ≠ '.') :
    PermittedToken receivers segments p (.mark c joint) := by
  intro hc
  exact (h hc).elim

@[simp] theorem next_sign {c : Char} (h : c ≠ ':') : p.next (sign c) = .other := next_mark h

@[simp] theorem next_ascription (h : p ≠ .colon) : p.next (sign ':') = .other := by
  simp [sign, Place.next, h]

@[simp] theorem permittedToken_sign {c : Char} (h : c ≠ '.') :
    PermittedToken receivers segments p (sign c) :=
  permittedToken_mark h

@[simp] theorem permittedToken_dot : PermittedToken receivers segments p (sign '.') ↔
    ∀ w, p = .word w → receivers w := by
  simp [sign, PermittedToken]

@[simp] theorem permittedToken_parens : PermittedToken receivers segments p (parens inner) ↔
    Permitted receivers segments .other inner := Iff.rfl

@[simp] theorem permittedToken_brackets : PermittedToken receivers segments p (brackets inner) ↔
    Permitted receivers segments .other inner := Iff.rfl

@[simp] theorem permittedToken_braces : PermittedToken receivers segments p (braces inner) ↔
    Permitted receivers segments .other inner := Iff.rfl

@[simp] theorem permittedToken_ofText {s : String} :
    PermittedToken receivers segments p (ofText s) := trivial

@[simp] theorem next_parens : p.next (parens inner) = .other := rfl

@[simp] theorem next_brackets : p.next (brackets inner) = .other := rfl

@[simp] theorem next_braces : p.next (braces inner) = .other := rfl

@[simp] theorem next_ofText {s : String} : p.next (ofText s) = .other := rfl

@[simp] theorem permitted_colons : Permitted receivers segments p colons := by
  simp [colons, signs]

@[simp] theorem after_colons : p.after colons = .colons := by
  simp [colons, signs, Place.next]

@[simp] theorem permitted_arrow : Permitted receivers segments p arrow := by
  simp [arrow, signs]

@[simp] theorem after_arrow : p.after arrow = .other := by
  simp [arrow, signs]

@[simp] theorem permitted_fatArrow : Permitted receivers segments p fatArrow := by
  simp [fatArrow, signs]

@[simp] theorem after_fatArrow : p.after fatArrow = .other := by
  simp [fatArrow, signs]

@[simp] theorem permitted_path {names : List String} :
    Permitted receivers segments p (path names) ↔ ∀ name ∈ names, segments name := by
  induction names generalizing p with
  | nil => simp [path]
  | cons name names ih =>
      rw [path, List.flatMap_cons, ← path]
      simp [ih]

@[simp] theorem after_path_nil : p.after (path []) = p := rfl

@[simp] theorem after_path_cons {name : String} {names : List String} :
    p.after (path (name :: names)) = (Place.word name).after (path names) := by
  rw [path, List.flatMap_cons, ← path]
  simp

namespace Standalone

@[simp] theorem nil : Standalone receivers segments [] where
  permitted _ _ := trivial
  ends _ hp := hp

theorem path {names : List String} (h : ∀ name ∈ names, segments name) :
    Standalone receivers segments (path names) where
  permitted _ _ := permitted_path.mpr h
  ends p hp := by
    induction names generalizing p with
    | nil => exact hp
    | cons name names ih =>
        rw [after_path_cons]
        exact ih (fun x hx => h x (List.mem_cons_of_mem name hx)) _ nofun

theorem append (ha : Standalone receivers segments a) (hb : Standalone receivers segments b) :
    Standalone receivers segments (a ++ b) where
  permitted p hp := permitted_append.mpr ⟨ha.permitted p hp, hb.permitted _ (ha.ends p hp)⟩
  ends p hp := by
    rw [after_append]
    exact hb.ends _ (ha.ends p hp)

theorem flatMap {α : Type} {f : α → List Token} {items : List α}
    (h : ∀ x ∈ items, Standalone receivers segments (f x)) :
    Standalone receivers segments (items.flatMap f) := by
  induction items with
  | nil => exact .nil
  | cons x items ih =>
      rw [List.flatMap_cons]
      have hrest := ih fun y hy => h y (List.mem_cons_of_mem x hy)
      exact (h x List.mem_cons_self).append hrest

theorem commas {items : List (List Token)}
    (h : ∀ item ∈ items, Standalone receivers segments item) :
    Standalone receivers segments (commas items) := by
  have hcomma : Standalone receivers segments [sign ','] :=
    { permitted := by simp
      ends := by simp }
  unfold Token.commas
  induction items with
  | nil => exact .nil
  | cons item items ih =>
      cases items with
      | nil => simpa using h
      | cons next items =>
          rw [List.intercalate_cons_cons]
          have hitem := h item List.mem_cons_self
          have hrest := ih fun x hx => h x (List.mem_cons_of_mem item hx)
          exact (hitem.append hcomma).append hrest

end Standalone

end SchemaWire.Token
