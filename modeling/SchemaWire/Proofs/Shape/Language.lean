import Mathlib.Algebra.BigOperators.Ring.List
import Mathlib.Computability.MyhillNerode
import SchemaWire.Shape.Pattern

/-!
The language of a pattern: the texts that it matches from end to end, put together from those of
its parts by union, concatenation and repetition, without regard to how a text is matched.

Reading a character leads from a language to its quotient by that character. The tasks that are
open after it have this quotient as their language, so a pattern accepts exactly the texts of its
language.
-/

namespace SchemaWire.Pattern

open scoped Computability

/-! ### Quotients by a character -/

section Quotient

variable {l m : Language Char} {c : Char} {w : List Char} {n : Nat} {test : Char → Bool}

def single (test : Char → Bool) : Language Char := {w | ∃ c, w = [c] ∧ test c = true}

theorem mem_single : w ∈ single test ↔ ∃ c, w = [c] ∧ test c = true := Iff.rfl

theorem leftQuotient_single :
    (single test).leftQuotient [c] = if test c = true then 1 else 0 := by
  ext w
  rw [Language.mem_leftQuotient, mem_single]
  by_cases hc : test c = true
  · simp [hc]
  · simp [hc, Language.notMem_zero]

theorem leftQuotient_one : (1 : Language Char).leftQuotient [c] = 0 := by
  ext w
  simp [Language.notMem_zero]

theorem nil_mem_mul : [] ∈ l * m ↔ [] ∈ l ∧ [] ∈ m := by
  simp [Language.mem_mul]

theorem nil_mem_pow : [] ∈ l ^ n ↔ n = 0 ∨ [] ∈ l := by
  induction n with
  | zero => simp
  | succ n ih =>
      rw [pow_succ', nil_mem_mul, ih]
      constructor
      · rintro ⟨hnil, -⟩
        exact .inr hnil
      · rintro (hzero | hnil)
        · omega
        · exact ⟨hnil, .inr hnil⟩

theorem leftQuotient_add : (l + m).leftQuotient [c] = l.leftQuotient [c] + m.leftQuotient [c] := rfl

/-- The first character belongs to the first part, unless that part is empty. -/
theorem mem_leftQuotient_mul : w ∈ (l * m).leftQuotient [c] ↔
    w ∈ l.leftQuotient [c] * m ∨ [] ∈ l ∧ w ∈ m.leftQuotient [c] := by
  simp only [Language.mem_leftQuotient, Language.mem_mul, List.singleton_append]
  constructor
  · rintro ⟨_ | ⟨d, u⟩, hu, v, hv, heq⟩
    · exact .inr ⟨hu, heq ▸ hv⟩
    · obtain ⟨rfl, rfl⟩ := List.cons.inj heq
      exact .inl ⟨u, hu, v, hv, rfl⟩
  · rintro (⟨u, hu, v, hv, rfl⟩ | ⟨hnil, hw⟩)
    · exact ⟨c :: u, hu, v, hv, rfl⟩
    · exact ⟨[], hnil, c :: w, hw, rfl⟩

theorem leftQuotient_mul_of_nil_mem (h : [] ∈ l) :
    (l * m).leftQuotient [c] = l.leftQuotient [c] * m + m.leftQuotient [c] := by
  ext w
  rw [mem_leftQuotient_mul, Language.mem_add]
  simp only [h, true_and]

theorem leftQuotient_mul_of_nil_notMem (h : [] ∉ l) :
    (l * m).leftQuotient [c] = l.leftQuotient [c] * m := by
  ext w
  rw [mem_leftQuotient_mul]
  simp only [h, false_and, or_false]

theorem leftQuotient_kstar : l∗.leftQuotient [c] = l.leftQuotient [c] * l∗ := by
  ext w
  constructor
  · intro hw
    obtain ⟨parts, heq, hparts⟩ := Language.mem_kstar_iff_exists_nonempty.mp hw
    -- Of parts that are not empty, the first begins with the character.
    rcases parts with _ | ⟨_ | ⟨d, u⟩, rest⟩
    · cases heq
    · exact absurd rfl (hparts [] List.mem_cons_self).2
    · obtain ⟨rfl, rfl⟩ := List.cons.inj heq
      have hfirst := (hparts (c :: u) List.mem_cons_self).1
      have hrest : rest.flatten ∈ l∗ :=
        Language.join_mem_kstar fun v hv => (hparts v (List.mem_cons_of_mem _ hv)).1
      exact Language.append_mem_mul (a := u) hfirst hrest
  · intro hw
    rw [← Language.one_add_self_mul_kstar_eq_kstar, Language.mem_leftQuotient, Language.mem_add]
    exact .inr (mem_leftQuotient_mul.mpr (.inl hw))

theorem leftQuotient_mul_kstar :
    (l * l∗).leftQuotient [c] = l.leftQuotient [c] * l∗ := by
  by_cases h : [] ∈ l
  · rw [leftQuotient_mul_of_nil_mem h, leftQuotient_kstar, Language.add_self]
  · exact leftQuotient_mul_of_nil_notMem h

/-- Repetitions before the one that the character belongs to are empty, and may as well come
after it. -/
theorem leftQuotient_pow_succ :
    (l ^ (n + 1)).leftQuotient [c] = l.leftQuotient [c] * l ^ n := by
  induction n with
  | zero => simp
  | succ n ih =>
      rw [pow_succ']
      by_cases h : [] ∈ l
      · -- With one more repetition, which may be empty, no text is lost.
        have hone : 1 ≤ l := by
          rintro w rfl
          exact h
        have hpad : l.leftQuotient [c] * l ^ n ≤ l.leftQuotient [c] * l ^ (n + 1) :=
          mul_le_mul_right (pow_le_pow_right' hone n.le_succ) _
        rw [leftQuotient_mul_of_nil_mem h, ih]
        exact sup_eq_left.mpr hpad
      · exact leftQuotient_mul_of_nil_notMem h

end Quotient

/-! ### Patterns -/

/-- The texts that a pattern matches from end to end. -/
def language : Pattern → Language Char
  | set s => single fun c => s.holds c
  | anyOf sets => single fun c => sets.any (CharSet.holds c)
  | seq p q => p.language * q.language
  | alt p q => p.language + q.language
  | group p => p.language
  | star p => p.language∗
  | plus p => p.language * p.language∗
  | opt p => 1 + p.language
  | times p n => p.language ^ n

theorem nullable_iff (p : Pattern) : p.nullable = true ↔ [] ∈ p.language := by
  induction p with
  | set s => simp [nullable, language, mem_single]
  | anyOf sets => simp [nullable, language, mem_single]
  | seq p q hp hq => simp [nullable, language, hp, hq, nil_mem_mul]
  | alt p q hp hq => simp only [nullable, language, Bool.or_eq_true, hp, hq, Language.mem_add]
  | group p hp => exact hp
  | star p _ => simp [nullable, language, Language.nil_mem_kstar]
  | plus p hp => simp [nullable, language, hp, nil_mem_mul, Language.nil_mem_kstar]
  | opt p _ => simp only [nullable, language, Language.mem_add, Language.nil_mem_one, true_or]
  | times p n hp => simp [nullable, language, hp, nil_mem_pow]

/-! ### Tasks -/

/-- The texts that match the patterns of a task one after the other. -/
def taskLanguage (task : List Pattern) : Language Char := (task.map language).prod

def tasksLanguage (tasks : List (List Pattern)) : Language Char := (tasks.map taskLanguage).sum

variable {p : Pattern} {c : Char} {task rest : List Pattern} {tasks others : List (List Pattern)}
  {w : List Char}

@[simp] theorem taskLanguage_nil : taskLanguage [] = 1 := rfl

@[simp] theorem taskLanguage_cons : taskLanguage (p :: rest) = p.language * taskLanguage rest := by
  simp [taskLanguage]

theorem taskLanguage_append :
    taskLanguage (task ++ rest) = taskLanguage task * taskLanguage rest := by
  simp [taskLanguage]

@[simp] theorem tasksLanguage_nil : tasksLanguage [] = 0 := rfl

@[simp] theorem tasksLanguage_cons :
    tasksLanguage (task :: tasks) = taskLanguage task + tasksLanguage tasks := rfl

theorem tasksLanguage_append :
    tasksLanguage (tasks ++ others) = tasksLanguage tasks + tasksLanguage others := by
  simp only [tasksLanguage, List.map_append, List.sum_append]

theorem tasksLanguage_map_append :
    tasksLanguage (tasks.map (· ++ rest)) = tasksLanguage tasks * taskLanguage rest := by
  simp only [tasksLanguage, List.map_map, Function.comp_def, taskLanguage_append,
    List.sum_map_mul_right]

theorem mem_tasksLanguage : w ∈ tasksLanguage tasks ↔ ∃ task ∈ tasks, w ∈ taskLanguage task := by
  induction tasks with
  | nil => simp [Language.notMem_zero]
  | cons task tasks ih => rw [tasksLanguage_cons, Language.mem_add, ih, List.exists_mem_cons_iff]

theorem nil_mem_taskLanguage : [] ∈ taskLanguage task ↔ task.all nullable = true := by
  induction task with
  | nil => simp
  | cons p rest ih =>
      rw [taskLanguage_cons, nil_mem_mul, ih, ← nullable_iff, List.all_cons, Bool.and_eq_true]

/-- A character is read by the first pattern of a task, or by what follows it if the pattern may
be empty. -/
theorem tasksLanguage_first (hp : tasksLanguage (p.after c) = p.language.leftQuotient [c])
    (hrest : tasksLanguage others = (taskLanguage rest).leftQuotient [c]) :
    tasksLanguage ((p.after c).map (· ++ rest) ++ if p.nullable then others else []) =
      (p.language * taskLanguage rest).leftQuotient [c] := by
  rw [tasksLanguage_append, tasksLanguage_map_append, hp]
  by_cases hnull : p.nullable = true
  · rw [if_pos hnull, leftQuotient_mul_of_nil_mem (p.nullable_iff.mp hnull), hrest]
  · rw [if_neg hnull, leftQuotient_mul_of_nil_notMem (mt p.nullable_iff.mpr hnull),
      tasksLanguage_nil, add_zero]

theorem tasksLanguage_after : tasksLanguage (p.after c) = p.language.leftQuotient [c] := by
  induction p with
  | set s =>
      rw [after, language, leftQuotient_single]
      split
      · simp
      · simp
  | anyOf sets =>
      rw [after, language, leftQuotient_single]
      split
      · simp
      · simp
  | seq p q hp hq =>
      have hrest : tasksLanguage (q.after c) = (taskLanguage [q]).leftQuotient [c] := by
        simpa using hq
      simpa [after, language] using tasksLanguage_first hp hrest
  | alt p q hp hq => rw [after, language, tasksLanguage_append, hp, hq, leftQuotient_add]
  | group p hp => exact hp
  | star p hp =>
      rw [after, tasksLanguage_map_append, hp, language, leftQuotient_kstar]
      simp [language]
  | plus p hp =>
      rw [after, tasksLanguage_map_append, hp, language, leftQuotient_mul_kstar]
      simp [language]
  | opt p hp => rw [after, hp, language, leftQuotient_add, leftQuotient_one, zero_add]
  | times p n hp =>
      cases n with
      | zero => simp [after, language, leftQuotient_one]
      | succ n =>
          rw [after, if_neg n.succ_ne_zero, tasksLanguage_map_append, hp, language,
            leftQuotient_pow_succ]
          simp [language]

theorem tasksLanguage_taskAfter :
    tasksLanguage (taskAfter c task) = (taskLanguage task).leftQuotient [c] := by
  induction task with
  | nil => simp [taskAfter, leftQuotient_one]
  | cons p rest ih => exact taskLanguage_cons ▸ tasksLanguage_first tasksLanguage_after ih

/-- Reading a character of a text leads from the open tasks to those that match the rest of it. -/
theorem mem_tasksLanguage_step :
    w ∈ tasksLanguage (tasks.flatMap (taskAfter c)).eraseDups ↔ c :: w ∈ tasksLanguage tasks := by
  have hstep : ∀ task, (∃ left ∈ taskAfter c task, w ∈ taskLanguage left) ↔
      c :: w ∈ taskLanguage task := by
    intro task
    rw [← mem_tasksLanguage, tasksLanguage_taskAfter]
    rfl
  rw [mem_tasksLanguage, mem_tasksLanguage]
  simp only [← hstep, List.mem_eraseDups, List.mem_flatMap]
  grind

theorem tasksMatch_iff : tasksMatch tasks w = true ↔ w ∈ tasksLanguage tasks := by
  induction w generalizing tasks with
  | nil => simp [tasksMatch, mem_tasksLanguage, nil_mem_taskLanguage]
  | cons c w ih => rw [tasksMatch, ih, mem_tasksLanguage_step]

/-- A pattern accepts exactly the texts of its language. -/
theorem accepts_iff {s : String} : p.accepts s = true ↔ s.toList ∈ p.language := by
  rw [accepts, tasksMatch_iff]
  simp [tasksLanguage, taskLanguage]

end SchemaWire.Pattern
