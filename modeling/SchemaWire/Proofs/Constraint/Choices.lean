import SchemaWire.Constraint.Check
import SchemaWire.Proofs.Constraint.Compiled
import SchemaWire.Proofs.Text.Words

/-!
Choices. A constraint to one of several values is compiled from an argument exactly if the
constraints to each single one are, and a value meets it if it meets one of them. Of a single choice
there is nothing to tell apart.
-/

namespace SchemaWire

open Stateful

namespace RuleKind

variable {kind : RuleKind} {type : Schema} {raw : List Char} {l : Literal}

theorem literal_eq_ok : kind.literal type raw = .ok l ↔
    ∃ scalar, type.inner.scalarKind? = some scalar ∧
      Literal.parse? scalar (String.ofList raw) = some l := by
  unfold literal
  cases type.inner.scalarKind? with
  | none => simp
  | some scalar => cases hparse : Literal.parse? scalar (String.ofList raw) <;> simp [hparse]

/-- Which entry asks for a literal matters only to what is said if there is none. -/
theorem literal_eq_ok_of_eq_ok (kind' : RuleKind) (h : kind.literal type raw = .ok l) :
    kind'.literal type raw = .ok l :=
  literal_eq_ok.mpr (literal_eq_ok.mp h)

end RuleKind

namespace Rule

theorem accepts_oneOf_iff {choices : List Literal} (hne : choices ≠ []) {v : Value} :
    (oneOf choices).accepts v = true ↔ ∃ l ∈ choices, (eq l).accepts v = true := by
  have hvalue : ∀ v, (oneOf choices).acceptsValue v = true ↔
      ∃ l ∈ choices, (eq l).acceptsValue v = true := by
    intro v
    simp [acceptsValue]
  cases v with
  | absent =>
      obtain ⟨l, hl⟩ := List.exists_mem_of_ne_nil choices hne
      exact ⟨fun _ => ⟨l, hl, rfl⟩, fun _ => rfl⟩
  | present inner => exact hvalue inner
  | _ => exact hvalue _

end Rule

namespace Constraint

variable {name field arg : String} {type : Schema} {k e : Constraint}

theorem compile_some (kind : RuleKind) (hname : RuleKind.named? name = some kind)
    (htakes : kind.takesArgument = true) (happlies : kind.appliesTo type = true) :
    compile name (some arg) field type =
      if Text.trim arg.toList = [] then .error (.missingArgument kind.name)
      else do return ⟨field, ← kind.rule type (Text.trim arg.toList), type.isOptional⟩ := by
  have hargument : kind.argument (some arg) =
      if Text.trim arg.toList = [] then .error (.missingArgument kind.name)
      else .ok (Text.trim arg.toList) := by
    rw [RuleKind.argument, htakes, Option.map_some]
    cases Text.trim arg.toList <;> rfl
  simp only [compile, hname, hargument, happlies, if_true]
  split <;> rfl

section

variable (hscalar : type.inner.scalarKind?.isSome = true)
include hscalar

theorem compile_eq_eq_ok_iff : compile "eq" (some arg) field type = .ok e ↔
    Text.trim arg.toList ≠ [] ∧ ∃ l, RuleKind.eq.literal type (Text.trim arg.toList) = .ok l ∧
      e = ⟨field, .eq l, type.isOptional⟩ := by
  rw [compile_some .eq rfl rfl hscalar]
  split
  · next hnone => simp [hnone]
  · next hsome =>
    cases hl : RuleKind.eq.literal type (Text.trim arg.toList) <;>
      simp [RuleKind.rule, hl, hsome, bind, Except.bind, pure, Except.pure, eq_comm]

theorem compile_oneOf_eq_ok_iff : compile "oneof" (some arg) field type = .ok k ↔
    Text.words arg.toList ≠ [] ∧
      ∃ ls, (Text.words arg.toList).mapM (RuleKind.oneOf.literal type) = .ok ls ∧
        k = ⟨field, .oneOf ls, type.isOptional⟩ := by
  rw [compile_some .oneOf rfl rfl hscalar]
  simp only [ne_eq, ← Text.trim_eq_nil_iff]
  split
  · next hnone => simp [hnone]
  · next hsome =>
    cases hls : (Text.words arg.toList).mapM (RuleKind.oneOf.literal type) <;>
      simp [RuleKind.rule, Text.words_trim, hls, hsome, bind, Except.bind, pure, Except.pure,
        eq_comm]

theorem compile_of_words_eq_nil (h : Text.words arg.toList = []) :
    compile "oneof" (some arg) field type = .error (.missingArgument "oneof") ∧
      compile "eq" (some arg) field type = .error (.missingArgument "eq") := by
  have htrim : Text.trim arg.toList = [] := Text.trim_eq_nil_iff.mpr h
  constructor
  · rw [compile_some .oneOf rfl rfl hscalar, if_pos htrim]
    rfl
  · rw [compile_some .eq rfl rfl hscalar, if_pos htrim]
    rfl

/-- Of one word the constraint to equal it is compiled, with blanks around it or not. -/
theorem compile_eq_word_iff {word : String} (hword : Text.IsWord word.toList)
    (htrim : Text.trim arg.toList = word.toList) :
    compile "eq" (some arg) field type = .ok e ↔
      ∃ l, RuleKind.eq.literal type word.toList = .ok l ∧ e = ⟨field, .eq l, type.isOptional⟩ := by
  rw [compile_eq_eq_ok_iff hscalar, htrim]
  exact and_iff_right hword.ne_nil

variable {words : List String} (hwords : Text.Separated arg.toList (words.map String.toList))
include hwords

theorem compile_word_iff {word : String} (hword : word ∈ words) :
    compile "eq" (some word) field type = .ok e ↔
      ∃ l, RuleKind.eq.literal type word.toList = .ok l ∧ e = ⟨field, .eq l, type.isOptional⟩ := by
  have hsolid : Text.IsWord word.toList := hwords.isWord word.toList (List.mem_map_of_mem hword)
  exact compile_eq_word_iff hscalar hsolid hsolid.trim

theorem exists_compile_oneOf_iff (hne : words ≠ []) :
    (∃ k, compile "oneof" (some arg) field type = .ok k) ↔
      ∀ word ∈ words, ∃ e, compile "eq" (some word) field type = .ok e := by
  have hcut : Text.words arg.toList = words.map String.toList := Text.words_of_separated hwords
  have hliterals : (∃ k, compile "oneof" (some arg) field type = .ok k) ↔
      ∃ ls, (words.map String.toList).mapM (RuleKind.oneOf.literal type) = .ok ls := by
    constructor
    · rintro ⟨k, hk⟩
      obtain ⟨-, ls, hls, -⟩ := (compile_oneOf_eq_ok_iff hscalar).mp hk
      exact ⟨ls, hcut ▸ hls⟩
    · rintro ⟨ls, hls⟩
      refine ⟨_, (compile_oneOf_eq_ok_iff hscalar).mpr ⟨?_, ls, hcut ▸ hls, rfl⟩⟩
      rwa [hcut, Ne, List.map_eq_nil_iff]
  rw [hliterals, exists_mapM_eq_ok_iff, List.forall_mem_map]
  refine forall₂_congr fun word hword => ?_
  constructor
  · rintro ⟨l, hl⟩
    exact ⟨_, (compile_word_iff hscalar hwords hword).mpr
      ⟨l, RuleKind.literal_eq_ok_of_eq_ok .eq hl, rfl⟩⟩
  · rintro ⟨e, he⟩
    obtain ⟨l, hl, -⟩ := (compile_word_iff hscalar hwords hword).mp he
    exact ⟨l, RuleKind.literal_eq_ok_of_eq_ok .oneOf hl⟩

theorem accepts_of_compile_oneOf (hk : compile "oneof" (some arg) field type = .ok k) (v : Value) :
    k.accepts v = true ↔
      ∃ word ∈ words, ∃ e, compile "eq" (some word) field type = .ok e ∧ e.accepts v = true := by
  obtain ⟨hne, ls, hls, rfl⟩ := (compile_oneOf_eq_ok_iff hscalar).mp hk
  rw [Text.words_of_separated hwords] at hne hls
  have hchoices : ls ≠ [] := by
    rintro rfl
    obtain ⟨word, hword⟩ := List.exists_mem_of_ne_nil _ hne
    obtain ⟨l, hl, -⟩ := exists_of_mem_of_mapM_eq_ok hls word hword
    cases hl
  refine (Rule.accepts_oneOf_iff hchoices).trans ?_
  constructor
  · rintro ⟨l, hl, hv⟩
    obtain ⟨cs, hcs, hliteral⟩ := forall_of_mapM_eq_ok hls l hl
    obtain ⟨word, hword, rfl⟩ := List.mem_map.mp hcs
    exact ⟨word, hword, _, (compile_word_iff hscalar hwords hword).mpr
      ⟨l, RuleKind.literal_eq_ok_of_eq_ok .eq hliteral, rfl⟩, hv⟩
  · rintro ⟨word, hword, e, he, hv⟩
    obtain ⟨l, hliteral, rfl⟩ := (compile_word_iff hscalar hwords hword).mp he
    obtain ⟨l', hl', hliteral'⟩ :=
      exists_of_mem_of_mapM_eq_ok hls word.toList (List.mem_map_of_mem hword)
    rw [RuleKind.literal_eq_ok_of_eq_ok .oneOf hliteral] at hliteral'
    cases hliteral'
    exact ⟨l, hl', hv⟩

end

/-- A choice is the disjunction of the constraints to each single value: it is compiled exactly if
all of them are, and then a value meets it exactly if it meets one of them. A choice of one value is
the constraint to it, and where there is nothing to choose from neither is compiled. -/
theorem oneOf_iff_any_eq (hscalar : type.inner.scalarKind?.isSome = true) {words : List String}
    (hwords : Text.Separated arg.toList (words.map String.toList)) (field : String) :
    (words = [] →
      compile "oneof" (some arg) field type = .error (.missingArgument "oneof") ∧
      compile "eq" (some arg) field type = .error (.missingArgument "eq")) ∧
    (words ≠ [] →
      ((∃ k, compile "oneof" (some arg) field type = .ok k) ↔
        ∀ word ∈ words, ∃ e, compile "eq" (some word) field type = .ok e) ∧
      ∀ k, compile "oneof" (some arg) field type = .ok k → ∀ v, (k.accepts v = true ↔
        ∃ word ∈ words, ∃ e, compile "eq" (some word) field type = .ok e ∧ e.accepts v = true)) ∧
    (∀ word, words = [word] →
      ((∃ k, compile "oneof" (some arg) field type = .ok k) ↔
        ∃ e, compile "eq" (some arg) field type = .ok e) ∧
      ∀ k e, compile "oneof" (some arg) field type = .ok k →
        compile "eq" (some arg) field type = .ok e → ∀ v, k.accepts v = e.accepts v) := by
  refine ⟨?_, fun hne => ⟨exists_compile_oneOf_iff hscalar hwords hne,
    fun k hk v => accepts_of_compile_oneOf hscalar hwords hk v⟩, ?_⟩
  · rintro rfl
    exact compile_of_words_eq_nil hscalar (Text.words_of_separated hwords)
  · rintro word rfl
    have hsolid : Text.IsWord word.toList := hwords.isWord word.toList List.mem_cons_self
    -- The argument and the word in it say the same to `eq`.
    have harg : ∀ e, compile "eq" (some arg) field type = .ok e ↔
        compile "eq" (some word) field type = .ok e := fun e =>
      (compile_eq_word_iff hscalar hsolid (Text.trim_of_separated_singleton hwords)).trans
        (compile_eq_word_iff hscalar hsolid hsolid.trim).symm
    simp only [harg]
    constructor
    · rw [exists_compile_oneOf_iff hscalar hwords (List.cons_ne_nil word []),
        List.forall_mem_singleton]
    · intro k e hk he v
      rw [Bool.eq_iff_iff, accepts_of_compile_oneOf hscalar hwords hk v]
      simp [he]

theorem oneOf_iff_any_eq_optional :
    ∃ k, compile "oneof" (some "\t3  +7 ") "n" (.optional (.scalar (.num .int8) none)) = .ok k ∧
      k.accepts (.present (.num ⟨.int8, 7⟩)) = true := by
  have hwords : Text.Separated "\t3  +7 ".toList (["3", "+7"].map String.toList) := by
    have hcut : Text.words "\t3  +7 ".toList = ["3", "+7"].map String.toList := by decide +kernel
    exact hcut ▸ Text.separated_words "\t3  +7 ".toList
  have hthree : compile "eq" (some "3") "n" (.optional (.scalar (.num .int8) none)) =
      .ok ⟨"n", .eq (.signed 3), true⟩ := by decide +kernel
  have hseven : compile "eq" (some "+7") "n" (.optional (.scalar (.num .int8) none)) =
      .ok ⟨"n", .eq (.signed 7), true⟩ := by decide +kernel
  have hscalar : (Schema.optional (.scalar (.num .int8) none)).inner.scalarKind?.isSome = true :=
    rfl
  obtain ⟨hsome, hone⟩ := (oneOf_iff_any_eq hscalar hwords "n").2.1 (List.cons_ne_nil "3" ["+7"])
  obtain ⟨k, hk⟩ := hsome.mpr (by simp [hthree, hseven])
  refine ⟨k, hk, (hone k hk _).mpr ⟨"+7", by simp, _, hseven, ?_⟩⟩
  decide +kernel

end Constraint

end SchemaWire
