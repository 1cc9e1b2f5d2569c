import SchemaWire.Codec.Decode
import SchemaWire.Codec.Encode
import SchemaWire.Proofs.Static.Table
import SchemaWire.Proofs.Wire.Agreement
import SchemaWire.Static.Codec

/-!
Static types beside schemas. A static type writes exactly what the schema of the same structure
writes for the same value, and reading by the one agrees with reading by the other on every input:
in the value, in the place where reading stops, and in the failure.
-/

namespace SchemaWire.StaticType

open Reader

def schema : StaticType → Schema
  | .num k => .scalar (.num k) none
  | .bool => .scalar .bool none
  | .string => .scalar .string none
  | .bytes => .bytes none
  | .option t => .optional t.schema
  | .array n t => .array n t.schema none
  | .list t => .sequence t.schema none
  | .table k v => .map k.schema v.schema none
  | .sortedTable k v => .map k.schema v.schema none

/-- The same value in the form of schemas; tables in the order in which they are listed. -/
def toValue : (t : StaticType) → t.Carrier → Value
  | .num k, x => .num ⟨k, x⟩
  | .bool, b => .flag b
  | .string, s => .text s
  | .bytes, bs => .bytes bs
  | .option _, none => .absent
  | .option t, some x => .present (t.toValue x)
  | .array _ t, items => .array (items.val.map t.toValue)
  | .list t, items => .sequence (items.map t.toValue)
  | .table k v, x => .map (x.entries.map fun e => (k.toValue e.1, v.toValue e.2))
  | .sortedTable k v, x => .map (x.entries.map fun e => (k.toValue e.1, v.toValue e.2))

/-! ### Writing -/

theorem andThen_push {σ : Type} (first second : Push σ) :
    Encoder.andThen (Encoder.push first) (Encoder.push second) =
      Encoder.push (Push.andThen first second) := rfl

theorem each_push {σ α β : Type} {item : β → Encoder σ Nat} {push : α → Push σ} {f : α → β}
    (h : ∀ a, item (f a) = Encoder.push (push a)) (as : List α) :
    Encoder.each item (as.map f) = Encoder.push (Push.each push as) := by
  induction as with
  | nil => rfl
  | cons a as ih => rw [List.map_cons, Encoder.each, h, ih, andThen_push, Push.each]

theorem write_entries {σ : Type} [Sink σ] {k v : StaticType}
    (hk : ∀ a, (k.schema.write (k.toValue a) : Encoder σ Nat) = Encoder.push (k.write a))
    (hv : ∀ b, (v.schema.write (v.toValue b) : Encoder σ Nat) = Encoder.push (v.write b))
    (es : List (k.Carrier × v.Carrier)) :
    Schema.write (.map k.schema v.schema none)
        (.map (es.map fun e => (k.toValue e.1, v.toValue e.2))) =
      (Encoder.push (.andThen (.length es.length)
        (.each (fun e => .andThen (k.write e.1) (v.write e.2)) es)) : Encoder σ Nat) := by
  have hentry : ∀ e : k.Carrier × v.Carrier,
      Encoder.andThen (k.schema.write (k.toValue e.1)) (v.schema.write (v.toValue e.2)) =
        (Encoder.push (Push.andThen (k.write e.1) (v.write e.2)) : Encoder σ Nat) := by
    intro e
    rw [hk, hv, andThen_push]
  rw [Schema.write, List.length_map, ← andThen_push]
  exact congrArg _ (each_push hentry es)

theorem write_toValue {σ : Type} [Sink σ] (t : StaticType) (x : t.Carrier) :
    (t.schema.write (t.toValue x) : Encoder σ Nat) = Encoder.push (t.write x) := by
  induction t with
  | num k => exact if_pos rfl
  | bool | string | bytes => rfl
  | option t ih =>
      cases x with
      | none => rfl
      | some x =>
          rw [schema, toValue, Schema.write, ih]
          rfl
  | array n t ih =>
      rw [schema, toValue, Schema.write, if_pos (by rw [List.length_map, x.property])]
      exact each_push ih x.val
  | list t ih =>
      rw [schema, toValue, Schema.write, each_push ih, List.length_map]
      rfl
  | table k v ihk ihv | sortedTable k v ihk ihv => exact write_entries ihk ihv x.entries

theorem encode_toValue (t : StaticType) (x : t.Carrier) :
    t.schema.encode (t.toValue x) = .ok (t.encode x) := by
  rw [Schema.encode, write_toValue]
  rfl

/-! ### Reading -/

/-- Whether the type may be a key: it has no parts, and equal keys have equal bits. -/
def isKey : StaticType → Bool
  | .num k => k.sort ≠ .float
  | .bool | .string => true
  | .option t => t.isKey
  | _ => false

def wellKeyed : StaticType → Bool
  | .num _ | .bool | .string | .bytes => true
  | .option t | .array _ t | .list t => t.wellKeyed
  | .table k v | .sortedTable k v => k.isKey && v.wellKeyed

theorem wellKeyed_of_isKey {t : StaticType} (h : t.isKey = true) : t.wellKeyed = true := by
  induction t with
  | num | bool | string => rfl
  | option t ih => exact ih h
  | _ => cases h

/-- Whether a static value and a value of the schema are the same, where the order of tables does
not count. -/
def Corresponds : (t : StaticType) → t.Carrier → Value → Prop
  | .num k, x, v => v = .num ⟨k, x⟩
  | .bool, b, v => v = .flag b
  | .string, s, v => v = .text s
  | .bytes, bs, v => v = .bytes bs
  | .option _, none, v => v = .absent
  | .option t, some x, v => ∃ w, v = .present w ∧ t.Corresponds x w
  | .array _ t, items, v => ∃ ws, v = .array ws ∧ List.Forall₂ t.Corresponds items.val ws
  | .list t, items, v => ∃ ws, v = .sequence ws ∧ List.Forall₂ t.Corresponds items ws
  | .table k t, x, v => ∃ es es', v = .map es' ∧ x.entries.Perm es ∧
      List.Forall₂ (EntryRel k.Corresponds t.Corresponds) es es'
  | .sortedTable k t, x, v => ∃ es es', v = .map es' ∧ x.entries.Perm es ∧
      List.Forall₂ (EntryRel k.Corresponds t.Corresponds) es es'

/-- Keys are equal as values of the schema exactly if they are equal. -/
theorem beq_iff_of_corresponds {t : StaticType} (hkey : t.isKey = true) {a b : t.Carrier}
    {x y : Value} (ha : t.Corresponds a x) (hb : t.Corresponds b y) : (x == y) = true ↔ a = b := by
  induction t generalizing x y with
  | num k =>
      obtain rfl : x = .num ⟨k, a⟩ := ha
      obtain rfl : y = .num ⟨k, b⟩ := hb
      show decide ((⟨k, a⟩ : Num) = ⟨k, b⟩) = true ↔ a = b
      simp
  | bool =>
      obtain rfl : x = .flag a := ha
      obtain rfl : y = .flag b := hb
      exact decide_eq_true_iff
  | string =>
      obtain rfl : x = .text a := ha
      obtain rfl : y = .text b := hb
      exact decide_eq_true_iff
  | option t ih =>
      cases a with
      | none =>
          obtain rfl : x = .absent := ha
          cases b with
          | none =>
              obtain rfl : y = .absent := hb
              exact ⟨fun _ => rfl, fun _ => rfl⟩
          | some b =>
              obtain ⟨y, rfl, -⟩ := hb
              exact ⟨nofun, nofun⟩
      | some a =>
          obtain ⟨x, rfl, ha⟩ := ha
          cases b with
          | none =>
              obtain rfl : y = .absent := hb
              exact ⟨nofun, nofun⟩
          | some b =>
              obtain ⟨y, rfl, hb⟩ := hb
              have hequal := ih hkey ha hb
              rw [Option.some_inj]
              exact hequal
  | _ => cases hkey

theorem agree_exactly {α β : Type} {R : α → β → Prop} {r : Reader α} {s : Reader β}
    (h : Agree R r s) (n : Nat) :
    Agree (fun as bs => List.Forall₂ R as.val bs) (exactly r n) (times s n) := by
  induction n with
  | zero => exact .pure .nil
  | succ n ih => exact h.bind fun ha => ih.bind fun has => .pure (.cons ha has)

theorem corresponds_ofList {k t : StaticType} (hkey : k.isKey = true)
    {es : List (k.Carrier × t.Carrier)} {es' : Entries}
    (h : List.Forall₂ (EntryRel k.Corresponds t.Corresponds) es es') :
    (StaticType.table k t).Corresponds (.ofList es) (.map es'.fold) ∧
      (StaticType.sortedTable k t).Corresponds (.ofList es) (.map es'.fold) := by
  have hkeys : ∀ {a b : k.Carrier} {x y : Value}, k.Corresponds a x → k.Corresponds b y →
      ((x == y) = true ↔ compare b a = .eq) := by
    intro a b x y ha hb
    rw [beq_iff_of_corresponds hkey ha hb, Std.LawfulEqOrd.compare_eq_iff_eq, eq_comm]
  -- The listed table keeps the order of the map; the sorted one is the listed one in another order.
  have hrel := Table.ofList_rel hkeys h
  exact ⟨⟨_, _, rfl, .refl _, hrel⟩, ⟨_, _, rfl, SortedTable.ofList_perm es, hrel⟩⟩

theorem agree_entry {k t : StaticType} (hk : Agree k.Corresponds (k.read []) (k.schema.read []))
    (ht : Agree t.Corresponds (t.read []) (t.schema.read [])) :
    Agree (EntryRel k.Corresponds t.Corresponds) (do return (← k.read [], ← t.read []))
      (do return (← k.schema.read [], ← t.schema.read [])) :=
  hk.bind fun ha => ht.bind fun hb => .pure ⟨ha, hb⟩

theorem agree_tables {k t : StaticType} (hkey : k.isKey = true)
    (hk : Agree k.Corresponds (k.read []) (k.schema.read []))
    (ht : Agree t.Corresponds (t.read []) (t.schema.read [])) (gate : List Constraint) :
    Agree (table k t).Corresponds ((table k t).read gate) ((table k t).schema.read gate) ∧
      Agree (sortedTable k t).Corresponds ((sortedTable k t).read gate)
        ((sortedTable k t).schema.read gate) := by
  have hentries (n : Nat) := (agree_entry hk ht).times n
  constructor
  · refine .bind_same fun n => (hentries n).bind fun hrel => .pure ?_
    rw [EntryTable.toList_ofList]
    exact (corresponds_ofList hkey hrel).1
  · refine .bind_same fun n => (hentries n).bind fun hrel => .pure ?_
    rw [EntryTable.toList_ofList]
    exact (corresponds_ofList hkey hrel).2

/-- Reading by a static type agrees with reading by its schema, within the same bounds on the
length. -/
theorem agree_read {t : StaticType} (hkeyed : t.wellKeyed = true) {gate : List Constraint}
    (hgate : t.schema.isOptional = true → gate = []) :
    Agree t.Corresponds (t.read gate) (t.schema.read gate) := by
  induction t generalizing gate with
  | num k => exact (Agree.refl _).map_right fun heq => by rw [heq]; rfl
  | bool => exact (Agree.refl _).map_right fun heq => by rw [heq]; rfl
  | string => exact .bind_same fun n => (Agree.refl _).map_right fun heq => by rw [heq]; rfl
  | bytes => exact .bind_same fun n => (Agree.refl _).map_right fun heq => by rw [heq]; rfl
  | option t ih =>
      -- A static optional hands no bounds on, so there may be none for the schema's to hand on.
      obtain rfl := hgate rfl
      refine .bind_same fun present => ?_
      rw [ite_self]
      cases present with
      | false => exact .pure rfl
      | true => exact (ih hkeyed fun _ => rfl).bind fun hx => .pure ⟨_, rfl, hx⟩
  | array n t ih =>
      exact (agree_exactly (ih hkeyed fun _ => rfl) n).map_right fun hitems => ⟨_, rfl, hitems⟩
  | list t ih =>
      refine .bind_same fun n => ?_
      exact ((ih hkeyed fun _ => rfl).times n).map_right fun hitems => ⟨_, rfl, hitems⟩
  | table k t ihk iht =>
      rw [wellKeyed, Bool.and_eq_true] at hkeyed
      have hk := ihk (wellKeyed_of_isKey hkeyed.1) fun _ => rfl
      exact (agree_tables hkeyed.1 hk (iht hkeyed.2 fun _ => rfl) gate).1
  | sortedTable k t ihk iht =>
      rw [wellKeyed, Bool.and_eq_true] at hkeyed
      have hk := ihk (wellKeyed_of_isKey hkeyed.1) fun _ => rfl
      exact (agree_tables hkeyed.1 hk (iht hkeyed.2 fun _ => rfl) gate).2

theorem readField_of_bounds {name : String} {type : Schema} {gate : List Constraint}
    (hbounds : ∀ k ∈ gate, k.boundsLength = true) :
    Schema.readField ⟨name, type, false, gate⟩ = type.read gate := by
  have hgates : gate.filter (·.boundsLength) = gate := List.filter_eq_self.mpr hbounds
  have hchecks : gate.filter (!·.boundsLength) = [] := by simpa using hbounds
  rw [Schema.readField, if_neg Bool.false_ne_true, hgates, hchecks]
  exact bind_pure (type.read gate)

theorem agree_bounded {t : StaticType} (hkeyed : t.wellKeyed = true)
    (hprefixed : t.schema.isPrefixed = true) (gate : List Constraint) :
    Agree t.Corresponds (t.read gate) (t.schema.read gate) := by
  refine agree_read hkeyed fun hoptional => ?_
  cases t with
  | option t => cases hprefixed
  | _ => cases hoptional

theorem agree_readOption {t : StaticType} (hkeyed : t.wellKeyed = true)
    (hprefixed : t.schema.isPrefixed = true) (gate : List Constraint) :
    Agree (option t).Corresponds (t.readOption gate) (Schema.read gate (.optional t.schema)) := by
  refine .bind_same fun present => ?_
  rw [hprefixed, if_pos rfl]
  cases present with
  | false => exact .pure rfl
  | true => exact (agree_bounded hkeyed hprefixed gate).bind fun hx => .pure ⟨_, rfl, hx⟩

theorem entries_correspond {k t : StaticType} (hk : ∀ a, k.Corresponds a (k.toValue a))
    (ht : ∀ b, t.Corresponds b (t.toValue b)) (es : List (k.Carrier × t.Carrier)) :
    List.Forall₂ (EntryRel k.Corresponds t.Corresponds) es
      (es.map fun e => (k.toValue e.1, t.toValue e.2)) :=
  List.forall₂_map_right_iff.mpr (List.forall₂_same.mpr fun e _ => ⟨hk e.1, ht e.2⟩)

theorem corresponds_toValue (t : StaticType) (x : t.Carrier) : t.Corresponds x (t.toValue x) := by
  induction t with
  | num | bool | string | bytes => rfl
  | option t ih =>
      cases x with
      | none => rfl
      | some x => exact ⟨_, rfl, ih x⟩
  | array n t ih =>
      exact ⟨_, rfl, List.forall₂_map_right_iff.mpr (List.forall₂_same.mpr fun x _ => ih x)⟩
  | list t ih =>
      exact ⟨_, rfl, List.forall₂_map_right_iff.mpr (List.forall₂_same.mpr fun x _ => ih x)⟩
  | table k t ihk iht => exact ⟨_, _, rfl, .refl _, entries_correspond ihk iht x.entries⟩
  | sortedTable k t ihk iht => exact ⟨_, _, rfl, .refl _, entries_correspond ihk iht x.entries⟩

/-! ### Whole inputs -/

section

variable {t : StaticType} {input : Bytes} {x : t.Carrier} {e : DecodeError}

theorem decode_eq_ok : t.decode input = .ok x ↔ ∃ c, t.read [] (.start input) = .ok x c :=
  run_eq_ok

theorem decode_eq_error :
    t.decode input = .error e ↔ ∃ c, t.read [] (.start input) = .error e c :=
  run_eq_error

theorem decodeAll_eq_ok :
    t.decodeAll input = .ok x ↔ ∃ c, t.read [] (.start input) = .ok x c ∧ c.rest = [] :=
  run_atEnd_eq_ok

theorem decodeAll_eq_error :
    t.decodeAll input = .error e ↔
      (∃ c, t.read [] (.start input) = .error e c) ∨
        ∃ x c, t.read [] (.start input) = .ok x c ∧ c.rest ≠ [] ∧ e = .trailing c.remaining :=
  run_atEnd_eq_error

end

/-- A static type and its schema decode an input to corresponding values or with the same error. -/
theorem decode_agrees {t : StaticType} (hkeyed : t.wellKeyed = true) (input : Bytes) :
    (∀ e, t.decode input = .error e ↔ t.schema.decode input = .error e) ∧
      ∀ x, t.decode input = .ok x → ∃ v, t.schema.decode input = .ok v ∧ t.Corresponds x v :=
  (agree_read hkeyed fun _ => rfl).run input

theorem decodeAll_agrees {t : StaticType} (hkeyed : t.wellKeyed = true) (input : Bytes) :
    (∀ e, t.decodeAll input = .error e ↔ t.schema.decodeAll input = .error e) ∧
      ∀ x, t.decodeAll input = .ok x → ∃ v, t.schema.decodeAll input = .ok v ∧ t.Corresponds x v :=
  (agree_read hkeyed fun _ => rfl).whole.run input

/-! ### Agreement -/

/-- A static type and its schema encode corresponding values alike and agree on every input; so do
reading within bounds and reading a field that has these bounds for constraints. -/
theorem agrees_with_schema {t : StaticType} (hkeyed : t.wellKeyed = true) :
    (∀ x, t.Corresponds x (t.toValue x) ∧ t.schema.encode (t.toValue x) = .ok (t.encode x)) ∧
      Agree t.Corresponds (t.read []) t.schema.reader ∧
      (t.schema.isPrefixed = true → ∀ (name : String) (gate : List Constraint),
        (∀ k ∈ gate, k.boundsLength = true) →
          Agree t.Corresponds (t.read gate) (Schema.readField ⟨name, t.schema, false, gate⟩) ∧
          Agree (option t).Corresponds (t.readOption gate)
            (Schema.readField ⟨name, .optional t.schema, false, gate⟩)) := by
  refine ⟨fun x => ⟨corresponds_toValue t x, encode_toValue t x⟩, agree_read hkeyed fun _ => rfl,
    fun hprefixed name gate hbounds => ?_⟩
  rw [readField_of_bounds hbounds, readField_of_bounds hbounds]
  exact ⟨agree_bounded hkeyed hprefixed gate, agree_readOption hkeyed hprefixed gate⟩

def pairsType : StaticType := .table (.option (.num .uint16)) .bool

def pairsTable : pairsType.Carrier := ⟨[(some 2, true), (none, false)], by decide⟩

def namesType : StaticType := .list .string

def mostNames : Constraint := ⟨"Names", .maxLen 1, false⟩

/-- A table, and a list whose length is bounded, by itself and as an optional field. -/
theorem agrees_with_schema_pairs :
    pairsType.wellKeyed = true ∧
      pairsType.schema.encode (pairsType.toValue pairsTable) =
        .ok [4, 0, 0, 0, 0, 0, 0, 0, 1, 2, 0, 1, 0, 0] ∧
      Agree pairsType.Corresponds (pairsType.read []) pairsType.schema.reader ∧
      namesType.wellKeyed = true ∧ namesType.schema.isPrefixed = true ∧
      mostNames.boundsLength = true ∧
      Agree namesType.Corresponds (namesType.read [mostNames])
        (Schema.readField ⟨"Names", namesType.schema, false, [mostNames]⟩) ∧
      Agree (option namesType).Corresponds (namesType.readOption [mostNames])
        (Schema.readField ⟨"Names", .optional namesType.schema, false, [mostNames]⟩) := by
  have hkeyed : pairsType.wellKeyed = true := rfl
  have hnames : namesType.wellKeyed = true := rfl
  have hprefixed : namesType.schema.isPrefixed = true := rfl
  have hbounds : ∀ k ∈ [mostNames], k.boundsLength = true := by decide
  obtain ⟨hencode, hread, -⟩ := agrees_with_schema hkeyed
  obtain ⟨-, -, hbounded⟩ := agrees_with_schema hnames
  exact ⟨hkeyed, (hencode pairsTable).2, hread, hnames, hprefixed, rfl,
    hbounded hprefixed "Names" [mostNames] hbounds⟩

end SchemaWire.StaticType
