import SchemaWire.Proofs.Codec.Cost
import SchemaWire.Proofs.Codec.PrefixFree
import SchemaWire.Proofs.Schema.WellFormed

/-!
How much a decoded value can hold, against the bytes that were read for it. Every element that is
read costs at least the least size of its schema, and the key of an entry at least one byte, so no
map has more entries than the input has bytes. The same is true of sequences unless the least size
of their elements is zero: then the length prefix alone says how many elements there are.
-/

namespace SchemaWire

/-! ### The values inside a value -/

namespace Value

mutual

def parts : Value → List Value
  | text s => [text s]
  | flag b => [flag b]
  | num n => [num n]
  | absent => [absent]
  | present inner => present inner :: parts inner
  | array items => array items :: itemParts items
  | sequence items => sequence items :: itemParts items
  | map entries => map entries :: entryParts entries
  | bytes bs => [bytes bs]
  | record fields => record fields :: fieldParts fields

def itemParts : List Value → List Value
  | [] => []
  | v :: vs => parts v ++ itemParts vs

def entryParts : List (Value × Value) → List Value
  | [] => []
  | (k, v) :: es => parts k ++ parts v ++ entryParts es

def fieldParts : List (String × Value) → List Value
  | [] => []
  | (_, v) :: fields => parts v ++ fieldParts fields

end

variable {part : Value}

theorem mem_itemParts {items : List Value} :
    part ∈ itemParts items ↔ ∃ v ∈ items, part ∈ v.parts := by
  induction items with
  | nil => simp [itemParts]
  | cons v vs ih => simp [itemParts, ih]

theorem mem_entryParts {entries : List (Value × Value)} :
    part ∈ entryParts entries ↔ ∃ e ∈ entries, part ∈ e.1.parts ∨ part ∈ e.2.parts := by
  induction entries with
  | nil => simp [entryParts]
  | cons e es ih => simp [entryParts, ih, or_assoc]

/-- Whether a map has at most `n` entries and, if `strict`, a sequence at most `n` elements. -/
def AtMost (n : Nat) (strict : Bool) : Value → Prop
  | map entries => entries.length ≤ n
  | sequence items => strict = true → items.length ≤ n
  | _ => True

end Value

namespace Schema

open Reader

theorem atMost_zero (schema : Schema) (n : Nat) (strict : Bool) :
    ∀ part ∈ schema.zero.parts, part.AtMost n strict := by
  induction schema with
  | scalar k name => cases k <;> exact List.forall_mem_singleton.mpr trivial
  | optional elem => exact List.forall_mem_singleton.mpr trivial
  | array k elem name ih =>
      rw [zero, Value.parts, List.forall_mem_cons]
      refine ⟨trivial, fun part hpart => ?_⟩
      obtain ⟨v, hv, hpart⟩ := Value.mem_itemParts.mp hpart
      exact ih part (List.eq_of_mem_replicate hv ▸ hpart)
  | sequence elem name => exact List.forall_mem_singleton.mpr fun _ => Nat.zero_le n
  | map key val name => exact List.forall_mem_singleton.mpr (Nat.zero_le n)
  | bytes name => exact List.forall_mem_singleton.mpr trivial
  | record name fields ih =>
      rw [zero, Value.parts, List.forall_mem_cons]
      refine ⟨trivial, ?_⟩
      induction fields with
      | nil => exact List.forall_mem_nil _
      | cons f fields ihfields =>
          have hrest := ihfields fun g hg => ih g (List.mem_cons_of_mem f hg)
          exact List.forall_mem_append.mpr ⟨ih f List.mem_cons_self, hrest⟩

/-! ### Sequences that cost nothing -/

mutual

/-- Whether what is read of a schema may have a sequence of elements that take no bytes. -/
def inflatable : Schema → Bool
  | scalar .. | bytes _ => false
  | optional elem => inflatable elem
  | array n elem _ => n ≠ 0 && inflatable elem
  | sequence elem _ => elem.minSize = 0 || inflatable elem
  | map key val _ => inflatable key || inflatable val
  | record _ fields => fieldsInflatable fields

def fieldsInflatable : List (Field Schema) → Bool
  | [] => false
  | ⟨_, type, skip, _⟩ :: fields => (!skip && inflatable type) || fieldsInflatable fields

end

theorem minSize_pos_of_key {key : Schema} (h : key.inner.scalarKind?.isSome = true) :
    0 < key.minSize := by
  cases key with
  | scalar k name =>
      cases k with
      | num k => exact k.width_pos
      | string | bool => exact Nat.succ_pos _
  | optional elem => exact Nat.one_pos
  | _ => cases h

section Bound

variable {strict : Bool} {k : Nat} {gate : List Constraint} {value : Value} {c c' : Cursor}

theorem fields_atMost {fields : FieldList} {values : Fields}
    (hread : ∀ f ∈ fields, (strict = true → f.type.inflatable = false) →
      ∀ {gate v c c'}, f.type.read gate c = .ok v c' → c'.offset ≤ c.offset + k →
      ∀ part ∈ v.parts, part.AtMost k strict)
    (hstrict : strict = true → fieldsInflatable fields = false)
    (h : readFields fields c = .ok values c') (hk : c'.offset ≤ c.offset + k) :
    ∀ part ∈ Value.fieldParts values, part.AtMost k strict := by
  -- By induction on the fields; what is left of them is read on a part of the same stretch.
  induction fields generalizing values c with
  | nil =>
      obtain ⟨rfl, -⟩ := readFields_nil_eq_ok.mp h
      exact List.forall_mem_nil _
  | cons f fields ih =>
      obtain ⟨v, mid, rest, rfl, hfield, hrest⟩ := readFields_cons_eq_ok.mp h
      have hmid : mid.offset ≤ c'.offset :=
        Nat.le_of_add_right_le (fieldSizes_le_of_read (fun _ _ => minSize_le_of_read) hrest)
      have hsplit : strict = true →
          (!f.skip && f.type.inflatable) = false ∧ fieldsInflatable fields = false :=
        fun hs => Bool.or_eq_false_iff.mp (hstrict hs)
      have ih := ih (fun g hg => hread g (List.mem_cons_of_mem f hg)) (fun hs => (hsplit hs).2)
        hrest
      rw [Value.fieldParts, List.forall_mem_append]
      cases hskip : f.skip with
      | true =>
          rw [readField_of_skip hskip] at hfield
          obtain ⟨rfl, rfl⟩ := Stateful.pure_eq_ok.mp hfield
          exact ⟨atMost_zero f.type k strict, ih hk⟩
      | false =>
          have htype := ((readField_eq_ok hskip).mp hfield).1
          have hle := offset_le_of_read htype
          have hinflatable : strict = true → f.type.inflatable = false := fun hs => by
            simpa [hskip] using (hsplit hs).1
          exact ⟨hread f List.mem_cons_self hinflatable htype (by omega), ih (by omega)⟩

/-- Of a value for which at most `k` bytes were read, no map has more than `k` entries, and no
sequence more than `k` elements unless the schema can be inflated. -/
theorem atMost_of_read {schema : Schema} (hwell : schema.WellFormed)
    (hstrict : strict = true → schema.inflatable = false)
    (h : schema.read gate c = .ok value c') (hk : c'.offset ≤ c.offset + k) :
    ∀ part ∈ value.parts, part.AtMost k strict := by
  induction schema generalizing gate value c c' with
  | scalar kind name =>
      cases kind with
      | string =>
          obtain ⟨s, mid, rfl, -⟩ := read_string_eq_ok.mp h
          exact List.forall_mem_singleton.mpr trivial
      | bool =>
          obtain ⟨x, rfl, -⟩ := read_bool_eq_ok.mp h
          exact List.forall_mem_singleton.mpr trivial
      | num kind =>
          obtain ⟨w, rfl, -⟩ := read_num_eq_ok.mp h
          exact List.forall_mem_singleton.mpr trivial
  | optional elem ih =>
      rcases read_optional_eq_ok.mp h with ⟨rfl, -⟩ | ⟨x, mid, inner, -, rfl, hpassed, hinner⟩
      · exact List.forall_mem_singleton.mpr trivial
      · have hmark : mid.offset = c.offset + 1 := hpassed.2
        have hparts := ih (List.forall_mem_cons.mp hwell).2 hstrict hinner (by omega)
        exact List.forall_mem_cons.mpr ⟨trivial, hparts⟩
  | array n elem name ih =>
      obtain ⟨items, rfl, rfl, hchain⟩ := read_array_eq_ok.mp h
      refine List.forall_mem_cons.mpr ⟨trivial, fun part hpart => ?_⟩
      obtain ⟨v, hv, hpart⟩ := Value.mem_itemParts.mp hpart
      obtain ⟨before, behind, hread, hbefore, hbehind⟩ :=
        exists_of_chain offset_le_of_read hchain v hv
      have hne : items.length ≠ 0 := Nat.ne_of_gt (List.length_pos_of_mem hv)
      have helem : strict = true → elem.inflatable = false := fun hs => by
        simpa [inflatable, hne] using hstrict hs
      exact ih (List.forall_mem_cons.mp hwell).2 helem hread (by omega) part hpart
  | sequence elem name ih =>
      obtain ⟨items, mid, rfl, -, hlength, hchain⟩ := read_sequence_eq_ok.mp h
      have hprefix := offset_of_length hlength
      have hitems := offset_of_chain minSize_le_of_read hchain
      have hsplit : strict = true → elem.minSize ≠ 0 ∧ elem.inflatable = false := fun hs => by
        simpa [inflatable] using hstrict hs
      refine List.forall_mem_cons.mpr ⟨fun hs => ?_, fun part hpart => ?_⟩
      · have hcost := Nat.le_mul_of_pos_right items.length (Nat.pos_of_ne_zero (hsplit hs).1)
        omega
      · obtain ⟨v, hv, hpart⟩ := Value.mem_itemParts.mp hpart
        obtain ⟨before, behind, hread, hbefore, hbehind⟩ :=
          exists_of_chain offset_le_of_read hchain v hv
        exact ih (List.forall_mem_cons.mp hwell).2 (fun hs => (hsplit hs).2) hread (by omega)
          part hpart
  | map key val name ihkey ihval =>
      obtain ⟨entries, mid, rfl, -, hlength, hchain⟩ := read_map_eq_ok.mp h
      obtain ⟨hkey, hboth⟩ := List.forall_mem_cons.mp hwell
      obtain ⟨hwellKey, hwellVal⟩ := List.forall_mem_append.mp hboth
      have hprefix := offset_of_length hlength
      have hentry : ∀ {e c c'}, readEntry key val c = .ok e c' → c.offset + 1 ≤ c'.offset := by
        intro e c c' he
        obtain ⟨between, hreadKey, hreadVal⟩ := readEntry_eq_ok.mp he
        have hcost := minSize_le_of_read hreadKey
        have hrest := offset_le_of_read hreadVal
        have hpos := minSize_pos_of_key hkey
        omega
      have hcount := offset_of_chain hentry hchain
      have hfold := Entries.length_fold_le entries
      have hsplit : strict = true → key.inflatable = false ∧ val.inflatable = false := fun hs =>
        Bool.or_eq_false_iff.mp (hstrict hs)
      -- An entry that comes again changes a value, but keys and values are among those read.
      have hentries : ∀ e ∈ entries.fold, (∀ part ∈ e.1.parts, part.AtMost k strict) ∧
          ∀ part ∈ e.2.parts, part.AtMost k strict := by
        refine Entries.forall_fold (P := fun v => ∀ part ∈ v.parts, part.AtMost k strict)
          (Q := fun v => ∀ part ∈ v.parts, part.AtMost k strict) fun e he => ?_
        obtain ⟨before, behind, hread, hbefore, hbehind⟩ :=
          exists_of_chain (fun h => Nat.le_of_add_right_le (hentry h)) hchain e he
        obtain ⟨between, hreadKey, hreadVal⟩ := readEntry_eq_ok.mp hread
        have hleKey := offset_le_of_read hreadKey
        have hleVal := offset_le_of_read hreadVal
        exact ⟨ihkey hwellKey (fun hs => (hsplit hs).1) hreadKey (by omega),
          ihval hwellVal (fun hs => (hsplit hs).2) hreadVal (by omega)⟩
      refine List.forall_mem_cons.mpr ⟨?_, fun part hpart => ?_⟩
      · show entries.fold.length ≤ k
        omega
      · obtain ⟨e, he, hpart | hpart⟩ := Value.mem_entryParts.mp hpart
        · exact (hentries e he).1 part hpart
        · exact (hentries e he).2 part hpart
  | bytes name =>
      obtain ⟨bs, mid, rfl, -⟩ := read_bytes_eq_ok.mp h
      exact List.forall_mem_singleton.mpr trivial
  | record name fields ih =>
      obtain ⟨values, rfl, hfields⟩ := read_record_eq_ok.mp h
      have hwellFields : ∀ f ∈ fields, f.type.WellFormed := fun f hf part hpart =>
        hwell part (List.mem_cons_of_mem _ (mem_fieldParts.mpr ⟨f, hf, hpart⟩))
      exact List.forall_mem_cons.mpr ⟨trivial, fields_atMost
        (fun f hf hs _ _ _ _ => ih f hf (hwellFields f hf) hs) hstrict hfields hk⟩

end Bound

/-! ### Values out of few bytes -/

def inflatedLength (n : Nat) (elem : Schema) : Nat := if elem.minSize = 0 then n else 1

mutual

/-- A value in which every sequence of elements that take no bytes has `n` elements, and every other
sequence and map has one. -/
def inflated (n : Nat) : Schema → Value
  | scalar kind name => zero (scalar kind name)
  | optional elem => .present (inflated n elem)
  | array k elem _ => .array (List.replicate k (inflated n elem))
  | sequence elem _ => .sequence (List.replicate (inflatedLength n elem) (inflated n elem))
  | map key val _ => .map [(inflated n key, inflated n val)]
  | bytes _ => .bytes []
  | record _ fields => .record (inflatedFields n fields)

def inflatedFields (n : Nat) : List (Field Schema) → List (String × Value)
  | [] => []
  | ⟨name, type, skip, _⟩ :: fields =>
    (name, if skip then zero type else inflated n type) :: inflatedFields n fields

end

mutual

def inflation (n : Nat) : Schema → Bytes
  | scalar .string _ | bytes _ => Bytes.ofLength 0
  | scalar .bool _ => [0]
  | scalar (.num k) _ => Bytes.littleEndian k.width 0
  | optional elem => 1 :: inflation n elem
  | array k elem _ => (List.replicate k (inflation n elem)).flatten
  | sequence elem _ => Bytes.ofLength (inflatedLength n elem) ++
      (List.replicate (inflatedLength n elem) (inflation n elem)).flatten
  | map key val _ => Bytes.ofLength 1 ++ (inflation n key ++ inflation n val)
  | record _ fields => fieldsInflation n fields

def fieldsInflation (n : Nat) : List (Field Schema) → Bytes
  | [] => []
  | ⟨_, type, skip, _⟩ :: fields =>
    if skip then fieldsInflation n fields else inflation n type ++ fieldsInflation n fields

end

theorem fieldsInflation_of_fieldSizes {fields : FieldList} {n : Nat}
    (htype : ∀ f ∈ fields, f.type.minSize = 0 → f.type.inflation n = [])
    (h : fieldSizes fields = 0) : fieldsInflation n fields = [] := by
  induction fields with
  | nil => rfl
  | cons f fields ih =>
      have ih := ih fun g hg => htype g (List.mem_cons_of_mem f hg)
      rw [fieldSizes] at h
      rw [fieldsInflation]
      split
      · next hskip => exact ih (by rwa [if_pos hskip] at h)
      · next hskip =>
        rw [if_neg hskip, sizeLimit] at h
        rw [htype f List.mem_cons_self (by omega), ih (by omega), List.nil_append]

theorem inflation_of_minSize {schema : Schema} (n : Nat) (h : schema.minSize = 0) :
    schema.inflation n = [] := by
  induction schema with
  | scalar k name =>
      cases k with
      | num k => exact absurd h (Nat.ne_of_gt k.width_pos)
      | string | bool => cases h
  | optional | sequence | map | bytes => cases h
  | array k elem name ih =>
      have hnone : k * elem.minSize = 0 := by
        simp only [minSize, sizeLimit] at h
        omega
      rw [inflation, List.flatten_eq_nil_iff]
      intro bs hbs
      obtain ⟨hk, rfl⟩ := List.mem_replicate.mp hbs
      exact ih ((Nat.mul_eq_zero.mp hnone).resolve_left hk)
  | record name fields ih => exact fieldsInflation_of_fieldSizes ih h

theorem length_inflation (schema : Schema) (n : Nat) :
    (schema.inflation n).length = (schema.inflation 0).length := by
  have hreplicate : ∀ (k : Nat) {bs bs' : Bytes}, bs.length = bs'.length →
      (List.replicate k bs).flatten.length = (List.replicate k bs').flatten.length := by
    intro k bs bs' heq
    simp [heq]
  induction schema with
  | scalar k name => cases k <;> rfl
  | optional elem ih => simp only [inflation, List.length_cons, ih]
  | array k elem name ih => exact hreplicate k ih
  | sequence elem name ih =>
      have hlength : ∀ k, (Bytes.ofLength k).length = 8 := fun _ => rfl
      rw [inflation, inflation, List.length_append, List.length_append, hlength, hlength]
      by_cases hnone : elem.minSize = 0
      · simp [inflation_of_minSize _ hnone]
      · rw [inflatedLength, inflatedLength, if_neg hnone, if_neg hnone, hreplicate 1 ih]
  | map key val name ihkey ihval => simp only [inflation, List.length_append, ihkey, ihval]
  | bytes name => rfl
  | record name fields ih =>
      show (fieldsInflation n fields).length = (fieldsInflation 0 fields).length
      induction fields with
      | nil => rfl
      | cons f fields ihfields =>
          have hrest := ihfields fun g hg => ih g (List.mem_cons_of_mem f hg)
          rw [fieldsInflation, fieldsInflation]
          split
          · exact hrest
          · rw [List.length_append, List.length_append, ih f List.mem_cons_self, hrest]

theorem chain_replicate {α : Type} {item : Reader α} {a : α} {bs : Bytes}
    (hitem : ∀ {c c'}, c.Passed bs c' → item c = .ok a c') (k : Nat) {c c' : Cursor}
    (hpassed : c.Passed (List.replicate k bs).flatten c') :
    Chain item c (List.replicate k a) c' := by
  induction k generalizing c with
  | zero =>
      obtain rfl := Cursor.passed_nil.mp hpassed
      exact .nil _
  | succ k ih =>
      obtain ⟨mid, hhead, htail⟩ := Cursor.passed_append.mp hpassed
      exact .cons (hitem hhead) (ih htail)

theorem readFields_inflation {fields : FieldList} {n : Nat}
    (htype : ∀ f ∈ fields, ∀ {c c'}, c.Passed (f.type.inflation n) c' →
      f.type.strip.read [] c = .ok (f.type.inflated n) c')
    {c c' : Cursor} (hpassed : c.Passed (fieldsInflation n fields) c') :
    readFields (stripFields fields) c = .ok (inflatedFields n fields) c' := by
  induction fields generalizing c with
  | nil => exact readFields_nil_eq_ok.mpr ⟨rfl, Cursor.passed_nil.mp hpassed⟩
  | cons f fields ih =>
      obtain ⟨name, type, skip, constraints⟩ := f
      have ih := @ih fun g hg => htype g (List.mem_cons_of_mem _ hg)
      rw [stripFields, readFields_cons_eq_ok]
      cases skip with
      | true =>
          refine ⟨type.zero, c, _, rfl, ?_, ih hpassed⟩
          rw [readField_of_skip rfl, zero_strip]
          rfl
      | false =>
          obtain ⟨mid, hhead, htail⟩ := Cursor.passed_append.mp hpassed
          refine ⟨type.inflated n, mid, _, rfl, (readField_eq_ok rfl).mpr ?_, ih htail⟩
          exact ⟨htype _ List.mem_cons_self hhead, rfl⟩

theorem read_inflation {n : Nat} (hn : n < 2 ^ 63) {schema : Schema} {c c' : Cursor}
    (hpassed : c.Passed (schema.inflation n) c') :
    schema.strip.read [] c = .ok (schema.inflated n) c' := by
  have hnone : announces [] 0 = true := announces_nil.mpr (by decide)
  induction schema generalizing c c' with
  | scalar k name =>
      cases k with
      | string =>
          refine read_string_eq_ok.mpr ⟨"", c', rfl, hnone, ?_, Cursor.passed_nil.mpr rfl⟩
          exact hpassed
      | bool => exact read_bool_eq_ok.mpr ⟨0, rfl, hpassed⟩
      | num k =>
          refine read_num_eq_ok.mpr ⟨0, rfl, ?_⟩
          rw [show (0 : BitVec k.bits).toNat = 0 from BitVec.toNat_zero]
          exact hpassed
  | optional elem ih =>
      have hpassed : c.Passed ([1] ++ elem.inflation n) c' := hpassed
      obtain ⟨mid, hmark, helem⟩ := Cursor.passed_append.mp hpassed
      refine read_optional_eq_ok.mpr (.inr ⟨1, mid, elem.inflated n, by decide, rfl, hmark, ?_⟩)
      rw [ite_self]
      exact ih helem
  | array k elem name ih =>
      have hchain := chain_replicate (@ih) k hpassed
      exact read_array_eq_ok.mpr ⟨_, rfl, List.length_replicate, hchain⟩
  | sequence elem name ih =>
      obtain ⟨mid, hlength, helems⟩ := Cursor.passed_append.mp hpassed
      have hchain := chain_replicate (@ih) (inflatedLength n elem) helems
      have hcount : announces [] (inflatedLength n elem) = true := by
        rw [announces_nil, inflatedLength]
        split <;> omega
      refine read_sequence_eq_ok.mpr ⟨_, mid, rfl, ?_, ?_, hchain⟩
      · rwa [List.length_replicate]
      · rwa [List.length_replicate]
  | map key val name ihkey ihval =>
      obtain ⟨mid, hlength, hentry⟩ := Cursor.passed_append.mp hpassed
      obtain ⟨between, hkey, hval⟩ := Cursor.passed_append.mp hentry
      have hread : readEntry key.strip val.strip mid = .ok (key.inflated n, val.inflated n) c' :=
        readEntry_eq_ok.mpr ⟨between, ihkey hkey, ihval hval⟩
      have hone : announces [] 1 = true := announces_nil.mpr (by decide)
      exact read_map_eq_ok.mpr
        ⟨[(key.inflated n, val.inflated n)], mid, rfl, hone, hlength, .cons hread (.nil c')⟩
  | bytes name =>
      exact read_bytes_eq_ok.mpr ⟨[], c', rfl, hnone, hpassed, Cursor.passed_nil.mpr rfl⟩
  | record name fields ih =>
      exact read_record_eq_ok.mpr ⟨_, rfl, readFields_inflation (fun f hf _ _ => ih f hf) hpassed⟩

theorem exists_sequence_of_fieldsInflatable {fields : FieldList} {n : Nat}
    (htype : ∀ f ∈ fields, f.type.inflatable = true →
      ∃ items, .sequence items ∈ (f.type.inflated n).parts ∧ items.length = n)
    (h : fieldsInflatable fields = true) :
    ∃ items, .sequence items ∈ Value.fieldParts (inflatedFields n fields) ∧ items.length = n := by
  induction fields with
  | nil => cases h
  | cons f fields ih =>
      simp only [inflatedFields, Value.fieldParts, List.mem_append]
      rcases Bool.or_eq_true_iff.mp h with h | h
      · obtain ⟨hskip, hinflatable⟩ : f.skip = false ∧ f.type.inflatable = true := by simpa using h
        obtain ⟨items, hmem, hlen⟩ := htype f List.mem_cons_self hinflatable
        refine ⟨items, .inl ?_, hlen⟩
        rwa [if_neg (Bool.eq_false_iff.mp hskip)]
      · obtain ⟨items, hmem, hlen⟩ := ih (fun g hg => htype g (List.mem_cons_of_mem f hg)) h
        exact ⟨items, .inr hmem, hlen⟩

theorem exists_sequence_of_inflatable {schema : Schema} (n : Nat) (h : schema.inflatable = true) :
    ∃ items, .sequence items ∈ (schema.inflated n).parts ∧ items.length = n := by
  have hmember : ∀ {k : Nat} {elem : Schema}, k ≠ 0 →
      (∃ items, .sequence items ∈ (elem.inflated n).parts ∧ items.length = n) →
      ∃ items, .sequence items ∈ Value.itemParts (List.replicate k (elem.inflated n)) ∧
        items.length = n := by
    rintro k elem hk ⟨items, hmem, hlen⟩
    exact ⟨items, Value.mem_itemParts.mpr ⟨_, List.mem_replicate.mpr ⟨hk, rfl⟩, hmem⟩, hlen⟩
  induction schema with
  | scalar | bytes => cases h
  | optional elem ih =>
      obtain ⟨items, hmem, hlen⟩ := ih h
      exact ⟨items, List.mem_cons_of_mem _ hmem, hlen⟩
  | array k elem name ih =>
      obtain ⟨hk, helem⟩ : k ≠ 0 ∧ elem.inflatable = true := by simpa [inflatable] using h
      obtain ⟨items, hmem, hlen⟩ := hmember hk (ih helem)
      exact ⟨items, List.mem_cons_of_mem _ hmem, hlen⟩
  | sequence elem name ih =>
      by_cases hnone : elem.minSize = 0
      · refine ⟨_, List.mem_cons_self, ?_⟩
        rw [List.length_replicate, inflatedLength, if_pos hnone]
      · have helem : elem.inflatable = true := by simpa [inflatable, hnone] using h
        obtain ⟨items, hmem, hlen⟩ := hmember Nat.one_ne_zero (ih helem)
        refine ⟨items, List.mem_cons_of_mem _ ?_, hlen⟩
        rwa [inflatedLength, if_neg hnone]
  | map key val name ihkey ihval =>
      rcases Bool.or_eq_true_iff.mp h with h | h
      · obtain ⟨items, hmem, hlen⟩ := ihkey h
        refine ⟨items, List.mem_cons_of_mem _ (Value.mem_entryParts.mpr ?_), hlen⟩
        exact ⟨_, List.mem_singleton_self _, .inl hmem⟩
      · obtain ⟨items, hmem, hlen⟩ := ihval h
        refine ⟨items, List.mem_cons_of_mem _ (Value.mem_entryParts.mpr ?_), hlen⟩
        exact ⟨_, List.mem_singleton_self _, .inr hmem⟩
  | record name fields ih =>
      obtain ⟨items, hmem, hlen⟩ := exists_sequence_of_fieldsInflatable ih h
      exact ⟨items, List.mem_cons_of_mem _ hmem, hlen⟩

/-- How much a decoded value can hold. No map in it has more entries than the input has bytes, and
no sequence has more elements, provided that the schema has no sequence of elements that take no
bytes. If it has one then, constraints apart, inputs of one and the same size lead to sequences of
any length that a prefix can announce. -/
theorem decoded_bounded {schema : Schema} (hbuildable : schema.Buildable) :
    (∀ {input value c}, schema.reader (.start input) = .ok value c →
      (∀ entries, .map entries ∈ value.parts → entries.length ≤ input.length) ∧
      (schema.inflatable = false →
        ∀ items, .sequence items ∈ value.parts → items.length ≤ input.length)) ∧
    (schema.inflatable = true → ∃ size, ∀ n < 2 ^ 63, ∃ input value, input.length = size ∧
      schema.strip.reader (.start input) = .ok value ⟨size, []⟩ ∧
      ∃ items, .sequence items ∈ value.parts ∧ items.length = n) := by
  constructor
  · intro input value c h
    have hstop : schema.reader (.start input) = stop (.ok value) c := h
    have hend := ((schema.sequential_read []).settles_start hstop not_lacking_ok).1
    have hk : c.offset ≤ (Cursor.start input).offset + input.length :=
      Nat.le_trans hend (Nat.le_add_left ..)
    constructor
    · intro entries hmem
      have hlax : false = true → schema.inflatable = false := nofun
      exact atMost_of_read hbuildable.wellFormed hlax h hk _ hmem
    · intro hbounded items hmem
      exact atMost_of_read hbuildable.wellFormed (fun _ => hbounded) h hk _ hmem rfl
  · intro hinflatable
    refine ⟨(schema.inflation 0).length, fun n hn => ⟨schema.inflation n, schema.inflated n,
      length_inflation schema n, ?_, exists_sequence_of_inflatable n hinflatable⟩⟩
    have hpassed := Cursor.passed_start (schema.inflation n)
    rw [length_inflation] at hpassed
    exact read_inflation hn hpassed

def readingsSchema : Schema :=
  .map (.scalar (.num .uint8) none) (.sequence (.scalar (.num .uint16) none) none) none

def readingsBytes : Bytes := Bytes.ofLength 1 ++ [7] ++ Bytes.ofLength 2 ++ [1, 0, 2, 0]

def readingsEntries : Entries :=
  [(.num ⟨.uint8, 7⟩, .sequence [.num ⟨.uint16, 1⟩, .num ⟨.uint16, 2⟩])]

def readings : Value := .map readingsEntries

/-- Ticks of a clock, which only can be counted. -/
def ticksSchema : Schema := .sequence (.record none []) none

theorem buildable_ticks : ticksSchema.Buildable :=
  ⟨.empty, .inl ⟨.slice (.struct []), rfl⟩⟩

theorem decoded_bounded_readings :
    readingsSchema.Buildable ∧
    readingsSchema.reader (.start readingsBytes) = .ok readings ⟨21, []⟩ ∧
    readingsSchema.inflatable = false ∧
    (∀ entries, .map entries ∈ readings.parts → entries.length ≤ 21) ∧
    (∀ items, .sequence items ∈ readings.parts → items.length ≤ 21) ∧
    ticksSchema.Buildable ∧ ticksSchema.inflatable = true ∧
    ∃ size, ∃ input value, input.length = size ∧
      ticksSchema.strip.reader (.start input) = .ok value ⟨size, []⟩ ∧
      ∃ items, .sequence items ∈ value.parts ∧ items.length = 1000000 := by
  have hbuild : readingsSchema.Buildable :=
    ⟨.empty, .inl ⟨.map (.scalar (.num .uint8)) (.slice (.scalar (.num .uint16))), rfl⟩⟩
  have hread : readingsSchema.reader (.start readingsBytes) = .ok readings ⟨21, []⟩ := by
    have hlength : announces [] readingsEntries.length = true := announces_nil.mpr (by decide)
    refine read_map_eq_ok.mpr
      ⟨readingsEntries, ⟨8, readingsBytes.drop 8⟩, rfl, hlength, ⟨rfl, rfl⟩, ?_⟩
    exact .cons rfl (.nil _)
  obtain ⟨hmaps, hsequences⟩ := (decoded_bounded hbuild).1 hread
  obtain ⟨size, hticks⟩ := (decoded_bounded buildable_ticks).2 rfl
  exact ⟨hbuild, hread, rfl, hmaps, hsequences rfl, buildable_ticks, rfl, size,
    hticks 1000000 (by decide)⟩

theorem ticks_outnumber_bytes :
    ticksSchema.Buildable ∧ ∃ input value c, ticksSchema.reader (.start input) = .ok value c ∧
      input = [18, 0, 0, 0, 0, 0, 0, 0] ∧ value = .sequence (List.replicate 9 (.record [])) ∧
      ∃ items, .sequence items ∈ value.parts ∧ input.length < items.length :=
  ⟨buildable_ticks, [18, 0, 0, 0, 0, 0, 0, 0], .sequence (List.replicate 9 (.record [])), ⟨8, []⟩,
    rfl, rfl, rfl, List.replicate 9 (.record []), List.mem_cons_self, by decide⟩

end Schema

end SchemaWire
