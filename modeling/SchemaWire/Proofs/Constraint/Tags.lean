import SchemaWire.Constraint.Tag
import SchemaWire.Proofs.Constraint.Choices

/-!
What a tag settles. Names are looked up and arguments are asked for when a tag is parsed, and again
when its declarations are compiled. The second time nothing is found that the first has missed: a
declaration that stands in a parsed tag is compiled, or else its entry of the table does not apply
to the type, or its argument is no literal or no length.
-/

namespace SchemaWire

open Stateful

namespace RuleKind

variable {kind : RuleKind} {type : Schema} {raw : List Char} {e : ConstraintError}

theorem name_of_named? {name : String} (h : named? name = some kind) : kind.name = name := by
  have hfound := List.find?_some h
  simpa using hfound

def comparesLiterals : RuleKind → Bool
  | .oneOf | .eq | .neq | .min | .max => true
  | _ => false

theorem isSome_scalarKind?_of_appliesTo (hliterals : kind.comparesLiterals = true)
    (happlies : kind.appliesTo type = true) : type.inner.scalarKind?.isSome = true := by
  cases kind with
  | oneOf | eq | neq => exact happlies
  | min | max => exact Option.isSome_of_any happlies
  | _ => cases hliterals

theorem literal_eq_error (hscalar : type.inner.scalarKind?.isSome = true)
    (h : kind.literal type raw = .error e) :
    ∃ scalar, e = .invalidLiteral kind.name (String.ofList raw) scalar := by
  obtain ⟨scalar, hkind⟩ := Option.isSome_iff_exists.mp hscalar
  rw [literal, hkind] at h
  cases hparse : Literal.parse? scalar (String.ofList raw) with
  | none =>
      simp only [hparse] at h
      cases h
      exact ⟨scalar, rfl⟩
  | some l =>
      simp only [hparse] at h
      cases h

theorem length_eq_error (h : kind.length raw = .error e) :
    e = .invalidLength kind.name (String.ofList raw) := by
  unfold length at h
  split at h <;> cases h
  rfl

theorem rule_eq_error (happlies : kind.appliesTo type = true)
    (h : kind.rule type raw = .error e) :
    (∃ word scalar, e = .invalidLiteral kind.name word scalar) ∨
      ∃ text, e = .invalidLength kind.name text := by
  have hliteral : ∀ {cs}, kind.comparesLiterals = true → kind.literal type cs = .error e →
      ∃ word scalar, e = .invalidLiteral kind.name word scalar := by
    intro cs hliterals hcs
    have hscalar := isSome_scalarKind?_of_appliesTo hliterals happlies
    obtain ⟨scalar, he⟩ := literal_eq_error hscalar hcs
    exact ⟨_, scalar, he⟩
  cases kind with
  | oneOf =>
      rcases except_bind_eq_error.mp h with h | ⟨_, _, ⟨⟩⟩
      obtain ⟨word, -, hword⟩ := exists_of_mapM_eq_error h
      exact .inl (hliteral rfl hword)
  | eq | neq | min | max =>
      rcases except_bind_eq_error.mp h with h | ⟨_, _, ⟨⟩⟩
      exact .inl (hliteral rfl h)
  | minLen | maxLen =>
      rcases except_bind_eq_error.mp h with h | ⟨_, _, ⟨⟩⟩
      exact .inr ⟨_, length_eq_error h⟩
  | shape | contains | startsWith | endsWith => cases h

end RuleKind

/-! ### Declarations -/

/-- The name of the declaration is in the table, and it has an argument exactly if its entry takes
one, which is not blank. -/
structure Declaration.Settled (d : Declaration) (kind : RuleKind) : Prop where
  named : RuleKind.named? d.name = some kind
  arity : d.argument.isSome = kind.takesArgument
  solid : ∀ argument ∈ d.argument, Text.trim argument.toList ≠ []

namespace Declaration.Settled

variable {d : Declaration} {kind : RuleKind}

theorem argument_eq_ok (h : d.Settled kind) : ∃ raw, kind.argument d.argument = .ok raw := by
  obtain ⟨name, given⟩ := d
  have harity := h.arity
  have hsolid := h.solid
  rw [RuleKind.argument, ← harity]
  cases given with
  | none => exact ⟨[], rfl⟩
  | some argument =>
      have hne := hsolid argument rfl
      cases htrim : Text.trim argument.toList with
      | nil => exact (hne htrim).elim
      | cons c cs => exact ⟨c :: cs, by simp [htrim]⟩

theorem compile_eq (h : d.Settled kind) (field : String) (type : Schema) :
    ∃ raw, Constraint.compile d.name d.argument field type =
      if kind.appliesTo type then do return ⟨field, ← kind.rule type raw, type.isOptional⟩
      else .error (.incompatible d.name type.text) := by
  obtain ⟨raw, hraw⟩ := h.argument_eq_ok
  refine ⟨raw, ?_⟩
  simp only [Constraint.compile, h.named, hraw]
  rfl

end Declaration.Settled

namespace Tag

/-- An argument is not blank unless it is empty, as it is trimmed. -/
theorem solid_of_splitEntry {entry argument : List Char} (h : (splitEntry entry).2 = some argument)
    (hne : argument ≠ []) : Text.trim argument ≠ [] := by
  unfold splitEntry at h
  split at h
  · cases h
    rw [Ne, Text.trim_eq_nil_iff, Text.words_trim, ← Text.trim_eq_nil_iff]
    exact hne
  · cases h

theorem exists_settled_of_declaration {entry : List Char} {d : Declaration}
    (h : declaration entry = .ok d) : ∃ kind, d.Settled kind := by
  have hsolid := @solid_of_splitEntry entry
  rw [declaration] at h
  generalize splitEntry entry = parts at h hsolid
  obtain ⟨name, argument⟩ := parts
  cases hnamed : RuleKind.named? (String.ofList name) with
  | none => simp [hnamed] at h
  | some kind =>
      simp only [hnamed] at h
      split at h <;> cases h
      · rename_i hne htakes
        exact ⟨kind, hnamed, htakes.symm, by simpa using hsolid rfl hne⟩
      · next htakes => exact ⟨kind, hnamed, htakes.symm, nofun⟩

theorem exists_of_mem_declarations {entries : List (List Char)} {tag : Tag}
    (h : ofEntries entries = .ok tag) :
    ∀ d ∈ tag.declarations, ∃ entry ∈ entries, declaration entry = .ok d := by
  induction entries generalizing tag with
  | nil =>
      cases h
      exact List.forall_mem_nil _
  | cons entry rest ih =>
      have hrest : ∀ {tag' : Tag}, ofEntries rest = .ok tag' → ∀ d ∈ tag'.declarations,
          ∃ x ∈ entry :: rest, declaration x = .ok d := by
        intro tag' htag' d hd
        obtain ⟨x, hx, hdeclaration⟩ := ih htag' d hd
        exact ⟨x, List.mem_cons_of_mem entry hx, hdeclaration⟩
      rw [ofEntries] at h
      split at h
      · obtain ⟨tag', htag', h⟩ := except_bind_eq_ok.mp h
        cases h
        exact fun d hd => hrest htag' d hd
      · obtain ⟨d, hd, h⟩ := except_bind_eq_ok.mp h
        obtain ⟨tag', htag', h⟩ := except_bind_eq_ok.mp h
        cases h
        exact List.forall_mem_cons.mpr ⟨⟨entry, List.mem_cons_self, hd⟩, hrest htag'⟩

theorem exists_settled_of_parse {raw : String} {tag : Tag} (h : parse raw = .ok tag)
    {d : Declaration} (hd : d ∈ tag.declarations) : ∃ kind, d.Settled kind := by
  obtain ⟨entry, -, hentry⟩ := exists_of_mem_declarations h d hd
  exact exists_settled_of_declaration hentry

/-- Parsing a tag settles names and arguments for good. Whatever the field and its type, a
declaration in a parsed tag is compiled, or it is refused because its entry does not apply to the
type, which is said exactly then, or because its argument is no literal of the type or no length. -/
theorem compile_of_parse {raw : String} {tag : Tag} (h : parse raw = .ok tag) {d : Declaration}
    (hd : d ∈ tag.declarations) (field : String) (type : Schema) :
    ∃ kind, RuleKind.named? d.name = some kind ∧ d.argument.isSome = kind.takesArgument ∧
      (Constraint.compile d.name d.argument field type =
          .error (.incompatible d.name type.text) ↔ kind.appliesTo type = false) ∧
      ((∃ k, Constraint.compile d.name d.argument field type = .ok k) ∨
        Constraint.compile d.name d.argument field type =
          .error (.incompatible d.name type.text) ∨
        (∃ word scalar, Constraint.compile d.name d.argument field type =
          .error (.invalidLiteral d.name word scalar)) ∨
        ∃ text, Constraint.compile d.name d.argument field type =
          .error (.invalidLength d.name text)) := by
  obtain ⟨kind, hsettled⟩ := exists_settled_of_parse h hd
  obtain ⟨rest, hcompile⟩ := hsettled.compile_eq field type
  refine ⟨kind, hsettled.named, hsettled.arity, ?_⟩
  rw [hcompile, ← RuleKind.name_of_named? hsettled.named]
  cases happlies : kind.appliesTo type with
  | false => simp
  | true =>
      cases hrule : kind.rule type rest with
      | ok rule => simp [bind, Except.bind, pure, Except.pure]
      | error e =>
          rcases RuleKind.rule_eq_error happlies hrule with ⟨word, scalar, rfl⟩ | ⟨text, rfl⟩ <;>
            simp [bind, Except.bind]

theorem compile_of_parse_contains :
    let d : Declaration := ⟨"contains", some "a=b"⟩
    parse " - ,\tcontains = a=b ,," = .ok ⟨true, [d]⟩ ∧
    (∃ k, Constraint.compile d.name d.argument "Note" (.scalar .string none) = .ok k) ∧
    Constraint.compile d.name d.argument "Note" (.bytes none) =
      .error (.incompatible "contains" "[]byte") := by
  intro d
  have hparse : parse " - ,\tcontains = a=b ,," = .ok ⟨true, [d]⟩ := by decide +kernel
  have hd : d ∈ [d] := List.mem_cons_self
  obtain ⟨kind, hkind, -, hiff, -⟩ := compile_of_parse hparse hd "Note" (.bytes none)
  refine ⟨hparse, ⟨⟨"Note", .contains "a=b", false⟩, by decide +kernel⟩, hiff.mpr ?_⟩
  obtain rfl : kind = .contains := by
    have hfound : RuleKind.named? "contains" = some .contains := by decide +kernel
    exact Option.some.inj (hkind.symm.trans hfound)
  rfl

end Tag

end SchemaWire
