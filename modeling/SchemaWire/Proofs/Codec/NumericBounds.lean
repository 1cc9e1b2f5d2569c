import SchemaWire.Proofs.Codec.Validation
import SchemaWire.Proofs.Scalar.Order
import SchemaWire.Proofs.Schema.WellFormed

/-!
Numeric bounds on the values that reading returns.

A field occurs in a value wherever its record does, behind fields that travel. What is read is
accepted and well formed at every occurrence, so there the field is absent or a number of its kind;
and a number that a bound accepts is on the right side of it, unless it is a pattern without a
value.
-/

namespace SchemaWire

open Reader Stateful

/-- The field occurs in the value of the schema, with this value. Fields that are skipped, and
everything in their zero values, are left out. -/
inductive Schema.Occurs (f : Field Schema) (v : Value) : Schema → Value → Prop where
  | field {name : Option String} {fields : FieldList} {values : Fields} :
      f ∈ fields → f.skip = false → values.get? f.name = some v →
      Occurs f v (.record name fields) (.record values)
  | inside {name : Option String} {fields : FieldList} {values : Fields} {g : Field Schema}
      {w : Value} :
      g ∈ fields → g.skip = false → values.get? g.name = some w → Occurs f v g.type w →
      Occurs f v (.record name fields) (.record values)
  | present {elem : Schema} {inner : Value} :
      Occurs f v elem inner → Occurs f v (.optional elem) (.present inner)
  | array {n : Nat} {elem : Schema} {name : Option String} {items : List Value} {item : Value} :
      item ∈ items → Occurs f v elem item → Occurs f v (.array n elem name) (.array items)
  | sequence {elem : Schema} {name : Option String} {items : List Value} {item : Value} :
      item ∈ items → Occurs f v elem item → Occurs f v (.sequence elem name) (.sequence items)
  | key {key val : Schema} {name : Option String} {entries : Entries} {e : Value × Value} :
      e ∈ entries → Occurs f v key e.1 → Occurs f v (.map key val name) (.map entries)
  | value {key val : Schema} {name : Option String} {entries : Entries} {e : Value × Value} :
      e ∈ entries → Occurs f v val e.2 → Occurs f v (.map key val name) (.map entries)

namespace Schema

theorem normal_of_get? {fields : FieldList} {values : Fields}
    (hnames : (fields.map (·.name)).Nodup) (h : NormalFields fields values) {f : Field Schema}
    {v : Value} (hf : f ∈ fields) (hskip : f.skip = false)
    (hget : values.get? f.name = some v) : f.type.Normal v := by
  have hfound : ∃ w, (f.name, w) ∈ values ∧ f.type.Normal w := by
    clear hget hnames
    induction fields generalizing values with
    | nil => cases hf
    | cons g fields ih =>
        obtain ⟨w, rest, rfl, hw, hrest⟩ := h
        rcases List.mem_cons.mp hf with rfl | hf
        · rw [hskip, if_neg Bool.false_ne_true] at hw
          exact ⟨w, List.mem_cons_self, hw⟩
        · obtain ⟨w', hmem, hw'⟩ := ih hrest hf
          exact ⟨w', List.mem_cons_of_mem _ hmem, hw'⟩
  obtain ⟨w, hmem, hw⟩ := hfound
  have hsame := get?_of_normalFields hnames h _ hmem
  obtain rfl : w = v := Option.some.inj (hsame.symm.trans hget)
  exact hw

end Schema

namespace Schema.Occurs

variable {f : Field Schema} {v value : Value} {schema : Schema}

theorem accepts (h : Occurs f v schema value) (haccepts : schema.accepts value = true) :
    ∀ k ∈ f.constraints, k.accepts v = true := by
  induction h with
  | field hf hskip hget =>
      obtain ⟨w, hw, hconstraints, -⟩ := acceptsFields_iff.mp haccepts f hf hskip
      obtain rfl : w = v := Option.some.inj (hw.symm.trans hget)
      exact List.all_eq_true.mp hconstraints
  | @inside _ _ _ g w hg hskip hget _ ih =>
      obtain ⟨u, hu, -, htype⟩ := acceptsFields_iff.mp haccepts g hg hskip
      obtain rfl : u = w := Option.some.inj (hu.symm.trans hget)
      exact ih htype
  | present _ ih => exact ih haccepts
  | array hitem _ ih | sequence hitem _ ih => exact ih (List.all_eq_true.mp haccepts _ hitem)
  | key he _ ih =>
      have hentry := List.all_eq_true.mp haccepts _ he
      exact ih (Bool.and_eq_true_iff.mp hentry).1
  | value he _ ih =>
      have hentry := List.all_eq_true.mp haccepts _ he
      exact ih (Bool.and_eq_true_iff.mp hentry).2

theorem exists_part (h : Occurs f v schema value) :
    ∃ name fields, record name fields ∈ schema.parts ∧ f ∈ fields := by
  induction h with
  | field hf _ _ => exact ⟨_, _, List.mem_cons_self, hf⟩
  | inside hg _ _ _ ih =>
      obtain ⟨name, fields, hpart, hf⟩ := ih
      exact ⟨name, fields, List.mem_cons_of_mem _ (mem_fieldParts.mpr ⟨_, hg, hpart⟩), hf⟩
  | present _ ih | array _ _ ih | sequence _ _ ih =>
      obtain ⟨name, fields, hpart, hf⟩ := ih
      exact ⟨name, fields, List.mem_cons_of_mem _ hpart, hf⟩
  | key _ _ ih =>
      obtain ⟨name, fields, hpart, hf⟩ := ih
      exact ⟨name, fields, List.mem_cons_of_mem _ (List.mem_append_left _ hpart), hf⟩
  | value _ _ ih =>
      obtain ⟨name, fields, hpart, hf⟩ := ih
      exact ⟨name, fields, List.mem_cons_of_mem _ (List.mem_append_right _ hpart), hf⟩

theorem fits (h : Occurs f v schema value) (hwell : schema.WellFormed) :
    ∀ k ∈ f.constraints, k.Fits f.name f.type := by
  obtain ⟨name, fields, hpart, hf⟩ := h.exists_part
  have hfields : FieldList.WellFormed fields := hwell _ hpart
  exact hfields.fits f hf

theorem normal (h : Occurs f v schema value) (hnames : schema.DistinctNames)
    (hnormal : schema.Normal value) : f.type.Normal v := by
  induction h with
  | field hf hskip hget => exact normal_of_get? hnames.1 hnormal hf hskip hget
  | inside hg hskip hget _ ih =>
      exact ih (eachField_iff.mp hnames.2 _ hg) (normal_of_get? hnames.1 hnormal hg hskip hget)
  | present _ ih => exact ih hnames hnormal
  | array hitem _ ih | sequence hitem _ ih => exact ih hnames (hnormal.2 _ hitem)
  | key he _ ih => exact ih hnames.1 (hnormal.2.2 _ he).1
  | value he _ ih => exact ih hnames.2 (hnormal.2.2 _ he).2

end Schema.Occurs

/-! ### Numbers and bounds -/

def Value.contents : Value → Value
  | .present inner => inner
  | value => value

/-- The value of the field is absent, or a number of the field's kind: a pattern without a value, or
one that stands for a point in the range. -/
def Field.Within (f : Field Schema) (range : Set Extended) (v : Value) : Prop :=
  v = .absent ∨ ∃ n, v.contents = .num n ∧ f.type.inner.scalarKind? = some (.num n.kind) ∧
    (n.IsNan ∨ ∃ x ∈ range, n.value? = some x)

namespace Literal

variable {l : Literal} {n : Num} {a : Extended}

theorem order?_num_eq {x : Number} (h : l.number? = some x) :
    l.order? (.num n) = n.number.compare? x := by
  simp only [order?, Value.number?, h]
  rfl

theorem order?_num (hkind : l.OfKind (.num n.kind)) (ha : l.value? = some a) {x : Extended}
    (hx : n.value? = some x) : l.order? (.num n) = some (cmp x a) := by
  obtain ⟨m, hm, hnumber, hvalue⟩ := hkind.exists_num
  exact (order?_num_eq hnumber).trans (Num.compare?_number hm.symm hx (hvalue ▸ ha))

end Literal

namespace Rule

variable {l : Literal} {n : Num} {a : Extended}

theorem accepts_contents (rule : Rule) {v : Value} (h : v ≠ .absent) :
    rule.accepts v = rule.acceptsValue v.contents := by
  cases v with
  | absent => exact (h rfl).elim
  | _ => rfl

theorem mem_Ici_of_min (hkind : l.OfKind (.num n.kind)) (ha : l.value? = some a)
    (h : (Rule.min l).acceptsValue (.num n) = true) :
    n.IsNan ∨ ∃ x ∈ Set.Ici a, n.value? = some x := by
  cases hx : n.value? with
  | none => exact .inl (Num.value?_eq_none_iff.mp hx)
  | some x =>
      rw [acceptsValue, Literal.order?_num hkind ha hx] at h
      have hle : ¬ cmp x a = .lt := fun hlt => of_decide_eq_true h (congrArg some hlt)
      rw [cmp_eq_lt_iff, not_lt] at hle
      exact .inr ⟨x, hle, rfl⟩

theorem mem_Iic_of_max (hkind : l.OfKind (.num n.kind)) (ha : l.value? = some a)
    (h : (Rule.max l).acceptsValue (.num n) = true) :
    n.IsNan ∨ ∃ x ∈ Set.Iic a, n.value? = some x := by
  cases hx : n.value? with
  | none => exact .inl (Num.value?_eq_none_iff.mp hx)
  | some x =>
      rw [acceptsValue, Literal.order?_num hkind ha hx] at h
      have hle : ¬ cmp x a = .gt := fun hgt => of_decide_eq_true h (congrArg some hgt)
      rw [cmp_eq_gt_iff, not_lt] at hle
      exact .inr ⟨x, hle, rfl⟩

end Rule

namespace Schema

theorem exists_scalar_of_scalarKind? {type : Schema} {kind : Kind}
    (h : type.scalarKind? = some kind) : ∃ name, type = .scalar kind name := by
  cases type with
  | scalar kind' name =>
      cases h
      exact ⟨name, rfl⟩
  | _ => cases h

theorem Normal.contents {type : Schema} {v : Value} (h : type.Normal v) (hpresent : v ≠ .absent) :
    type.inner.Normal v.contents := by
  cases type with
  | optional elem =>
      cases v with
      | absent => exact (hpresent rfl).elim
      | present inner => exact h
      | _ => exact h.elim
  | scalar kind name =>
      cases v with
      | present inner => cases kind <;> exact h.elim
      | _ => exact h
  | _ =>
      cases v with
      | present inner => exact h.elim
      | _ => exact h

theorem exists_num_of_normal {type : Schema} {k : NumKind} {v : Value}
    (hscalar : type.inner.scalarKind? = some (.num k)) (h : type.Normal v) :
    v = .absent ∨ ∃ n : Num, v.contents = .num n ∧ n.kind = k ∧
      ∀ rule : Rule, rule.accepts v = rule.acceptsValue (.num n) := by
  by_cases hpresent : v = .absent
  · exact .inl hpresent
  · obtain ⟨name, hinner⟩ := exists_scalar_of_scalarKind? hscalar
    have hcontents := h.contents hpresent
    have hrules := fun rule : Rule => rule.accepts_contents hpresent
    rw [hinner] at hcontents
    cases hnum : v.contents with
    | num n =>
        rw [hnum] at hcontents hrules
        exact .inr ⟨n, rfl, hcontents, hrules⟩
    | _ =>
        rw [hnum] at hcontents
        exact hcontents.elim

theorem exists_kind_of_suits {type : Schema} {l : Literal} {a : Extended}
    (h : RuleKind.Suits type l) (ha : l.value? = some a) :
    ∃ k, type.inner.scalarKind? = some (.num k) ∧ l.OfKind (.num k) := by
  obtain ⟨kind, hscalar, hkind⟩ := h
  cases kind with
  | num k => exact ⟨k, hscalar, hkind⟩
  | string =>
      obtain ⟨s, rfl⟩ := hkind
      cases ha
  | bool =>
      obtain ⟨b, rfl⟩ := hkind
      cases ha

theorem Occurs.within {schema : Schema} {value v : Value} {f : Field Schema} {k : Constraint}
    {l : Literal} {a : Extended} {range : Set Extended} (h : Occurs f v schema value)
    (hbuildable : schema.Buildable) (hnormal : schema.Normal value)
    (haccepts : schema.accepts value = true) (hk : k ∈ f.constraints)
    (hl : l ∈ k.rule.literals) (ha : l.value? = some a)
    (hrange : ∀ n : Num, l.OfKind (.num n.kind) → k.rule.acceptsValue (.num n) = true →
      n.IsNan ∨ ∃ x ∈ range, n.value? = some x) :
    f.Within range v := by
  have hfits := h.fits hbuildable.wellFormed k hk
  obtain ⟨kind, hscalar, hkind⟩ := exists_kind_of_suits (hfits.literals l hl) ha
  have hfield := h.normal hbuildable.distinctNames hnormal
  rcases exists_num_of_normal hscalar hfield with rfl | ⟨n, hcontents, rfl, hrules⟩
  · exact .inl rfl
  · have haccept : k.rule.acceptsValue (.num n) = true := by
      rw [← hrules]
      exact h.accepts haccepts k hk
    exact .inr ⟨n, hcontents, hscalar, hrange n hkind haccept⟩

/-- Numeric bounds bind. Wherever a field that travels occurs in a decoded value, it is absent, or a
pattern that is no number, or a number of its kind that is not below a minimum and not above a
maximum of the field. -/
theorem decode_within_bounds {schema : Schema} {input : Bytes} {value v : Value} {c : Cursor}
    {f : Field Schema} (hbuildable : schema.Buildable)
    (h : schema.reader (.start input) = .ok value c) (hoccurs : Occurs f v schema value)
    {k : Constraint} (hk : k ∈ f.constraints) :
    (∀ l a, k.rule = .min l → l.value? = some a → f.Within (Set.Ici a) v) ∧
    (∀ l b, k.rule = .max l → l.value? = some b → f.Within (Set.Iic b) v) := by
  have hnormal : schema.Normal value := normal_of_read h
  have haccepts := accepts_of_read hbuildable.distinctNames hbuildable.measured h
  constructor
  · intro l a hmin ha
    refine hoccurs.within hbuildable hnormal haccepts hk ?_ ha fun n hkind haccept => ?_
    · rw [hmin]
      exact List.mem_singleton_self l
    · rw [hmin] at haccept
      exact Rule.mem_Ici_of_min hkind ha haccept
  · intro l b hmax hb
    refine hoccurs.within hbuildable hnormal haccepts hk ?_ hb fun n hkind haccept => ?_
    · rw [hmax]
      exact List.mem_singleton_self l
    · rw [hmax] at haccept
      exact Rule.mem_Iic_of_max hkind hb haccept

/-- Readings of a gauge, and the last one that was seen, which does not travel. -/
def gaugeType : TypeExpr :=
  .struct
    [⟨"Level", .scalar (.num .float64), "min=0"⟩,
     ⟨"Age", .pointer (.scalar (.num .uint8)), "min=18, max=150"⟩,
     ⟨"Seen", .struct [⟨"Age", .scalar (.num .uint8), "min=18"⟩], "-"⟩]

def levelField : Field Schema :=
  ⟨"Level", .scalar (.num .float64) none, false, [⟨"Level", .min (.float 0), false⟩]⟩

def ageField : Field Schema :=
  ⟨"Age", .optional (.scalar (.num .uint8) none), false,
    [⟨"Age", .min (.unsigned 18), true⟩, ⟨"Age", .max (.unsigned 150), true⟩]⟩

def seenAgeField : Field Schema :=
  ⟨"Age", .scalar (.num .uint8) none, false, [⟨"Age", .min (.unsigned 18), false⟩]⟩

def gaugeSchema : Schema :=
  .record none [levelField, ageField, ⟨"Seen", .record none [seenAgeField], true, []⟩]

def gaugeBytes : Bytes := [0, 0, 0, 0, 0, 0, 248, 127, 1, 42]

def gaugeValue : Value :=
  .record [("Level", .num ⟨.float64, 0x7ff8000000000000⟩), ("Age", .present (.num ⟨.uint8, 42⟩)),
    ("Seen", .record [("Age", .num ⟨.uint8, 0⟩)])]

theorem decode_within_bounds_gauge :
    build .empty gaugeType = .ok gaugeSchema ∧
    gaugeSchema.reader (.start gaugeBytes) = .ok gaugeValue ⟨10, []⟩ ∧
    ageField.Within (Set.Ici (.ofRat 18)) (.present (.num ⟨.uint8, 42⟩)) ∧
    ageField.Within (Set.Iic (.ofRat 150)) (.present (.num ⟨.uint8, 42⟩)) := by
  have hbuild : build .empty gaugeType = .ok gaugeSchema := rfl
  have hbuildable : gaugeSchema.Buildable := ⟨.empty, .inl ⟨gaugeType, hbuild⟩⟩
  have hread : gaugeSchema.reader (.start gaugeBytes) = .ok gaugeValue ⟨10, []⟩ := rfl
  have hoccurs : Occurs ageField (.present (.num ⟨.uint8, 42⟩)) gaugeSchema gaugeValue :=
    .field (List.mem_cons_of_mem _ List.mem_cons_self) rfl rfl
  have hmin := decode_within_bounds hbuildable hread hoccurs List.mem_cons_self
  have hmax := decode_within_bounds hbuildable hread hoccurs
    (List.mem_cons_of_mem _ List.mem_cons_self)
  exact ⟨hbuild, hread, hmin.1 _ _ rfl rfl, hmax.2 _ _ rfl rfl⟩

/-- A level that is no number passes its minimum, and an age in the zero value of a skipped field is
not held against its own. -/
theorem decode_outside_bounds :
    build .empty gaugeType = .ok gaugeSchema ∧
    gaugeSchema.reader (.start gaugeBytes) = .ok gaugeValue ⟨10, []⟩ ∧
    (∃ level a, Occurs levelField (.num level) gaugeSchema gaugeValue ∧
      ⟨"Level", .min (.float 0), false⟩ ∈ levelField.constraints ∧
      (Literal.float 0).value? = some a ∧ level.value? = none) ∧
    ∃ (values : Fields) (age : Num) (a x : Extended), gaugeValue = .record values ∧
      values.get? "Seen" = some (.record [("Age", .num age)]) ∧
      ⟨"Age", .min (.unsigned 18), false⟩ ∈ seenAgeField.constraints ∧
      (Literal.unsigned 18).value? = some a ∧ age.value? = some x ∧ ¬ a ≤ x := by
  have hzero : (Literal.float 0).value? ≠ none := by
    show BinaryFormat.double.value? 0 ≠ none
    rw [ne_eq, BinaryFormat.value?_eq_none_iff]
    decide
  obtain ⟨a, ha⟩ := Option.ne_none_iff_exists'.mp hzero
  have hnan : Num.value? ⟨.float64, 0x7ff8000000000000⟩ = none :=
    Num.value?_eq_none_iff.mpr ⟨rfl, by decide⟩
  have hless : ¬ Extended.ofRat 18 ≤ Extended.ofRat 0 :=
    not_le.mpr (Extended.ofRat_lt_ofRat.mpr (by norm_num))
  refine ⟨rfl, rfl, ⟨_, a, .field List.mem_cons_self rfl rfl, List.mem_cons_self, ha, hnan⟩, ?_⟩
  exact ⟨_, _, _, _, rfl, rfl, List.mem_cons_self, rfl, rfl, hless⟩

end Schema

end SchemaWire
