import SchemaWire.Proofs.Codec.Reading

/-!
What reading costs. Every value that is read takes at least the least size of its schema from the
input, and the items of a list are read one behind the other, between the ends of what the list
takes.
-/

namespace SchemaWire.Schema

open Reader

variable {α : Type} {item : Reader α} {as : List α} {gate : List Constraint} {value : Value}
  {c c' : Cursor}

theorem offset_of_chain {w : Nat}
    (hitem : ∀ {a c c'}, item c = .ok a c' → c.offset + w ≤ c'.offset)
    (hchain : Chain item c as c') : c.offset + as.length * w ≤ c'.offset := by
  induction hchain with
  | nil => simp
  | cons ha _ ih =>
      have hhead := hitem ha
      rw [List.length_cons, Nat.add_mul, Nat.one_mul]
      omega

theorem exists_of_chain (hitem : ∀ {a c c'}, item c = .ok a c' → c.offset ≤ c'.offset)
    (hchain : Chain item c as c') :
    ∀ a ∈ as, ∃ before behind, item before = .ok a behind ∧ c.offset ≤ before.offset ∧
      behind.offset ≤ c'.offset := by
  induction hchain with
  | nil => nofun
  | @cons c mid c' a as ha hrest ih =>
      have hhead := hitem ha
      have hle : mid.offset ≤ c'.offset :=
        Nat.le_of_add_right_le (offset_of_chain (w := 0) hitem hrest)
      refine List.forall_mem_cons.mpr ⟨⟨c, mid, ha, Nat.le_refl _, hle⟩, fun x hx => ?_⟩
      obtain ⟨before, behind, hx, hbefore, hbehind⟩ := ih x hx
      exact ⟨before, behind, hx, by omega, hbehind⟩

theorem offset_of_length {n : Nat} (h : c.Passed (Bytes.ofLength n) c') :
    c'.offset = c.offset + 8 := h.2

theorem fieldSizes_le_of_read {fields : FieldList} {values : Fields}
    (hread : ∀ f ∈ fields, ∀ {gate v c c'}, f.type.read gate c = .ok v c' →
      c.offset + f.type.minSize ≤ c'.offset)
    (h : readFields fields c = .ok values c') : c.offset + fieldSizes fields ≤ c'.offset := by
  induction fields generalizing values c with
  | nil =>
      obtain ⟨-, rfl⟩ := readFields_nil_eq_ok.mp h
      exact Nat.le_refl _
  | cons f fields ih =>
      obtain ⟨v, mid, rest, rfl, hfield, hrest⟩ := readFields_cons_eq_ok.mp h
      have htail := ih (fun g hg => hread g (List.mem_cons_of_mem f hg)) hrest
      rw [fieldSizes]
      split
      · next hskip =>
        rw [readField_of_skip hskip] at hfield
        obtain ⟨-, rfl⟩ := Stateful.pure_eq_ok.mp hfield
        exact htail
      · next hskip =>
        have htype := ((readField_eq_ok (Bool.eq_false_iff.mpr hskip)).mp hfield).1
        have hhead := hread f List.mem_cons_self htype
        omega

theorem minSize_le_of_read {schema : Schema} (h : schema.read gate c = .ok value c') :
    c.offset + schema.minSize ≤ c'.offset := by
  induction schema generalizing gate value c c' with
  | scalar k name =>
      cases k with
      | string =>
          obtain ⟨s, mid, -, -, hlength, htext⟩ := read_string_eq_ok.mp h
          have hmid : mid.offset + (Text.utf8 s).length = c'.offset := htext.2.symm
          have hprefix := offset_of_length hlength
          show c.offset + 8 ≤ _
          omega
      | bool =>
          obtain ⟨x, -, hpassed⟩ := read_bool_eq_ok.mp h
          exact Nat.le_of_eq hpassed.2.symm
      | num k =>
          obtain ⟨w, -, hpassed⟩ := read_num_eq_ok.mp h
          have hoffset := hpassed.2
          rw [Bytes.length_littleEndian] at hoffset
          exact Nat.le_of_eq hoffset.symm
  | optional elem ih =>
      rcases read_optional_eq_ok.mp h with ⟨-, hpassed⟩ | ⟨x, mid, inner, -, -, hpassed, hinner⟩
      · exact Nat.le_of_eq hpassed.2.symm
      · have hmark : mid.offset = c.offset + 1 := hpassed.2
        have helem := ih hinner
        show c.offset + 1 ≤ _
        omega
  | array n elem name ih =>
      obtain ⟨items, -, rfl, hchain⟩ := read_array_eq_ok.mp h
      have hitems := offset_of_chain ih hchain
      rw [minSize]
      omega
  | sequence elem name ih =>
      obtain ⟨items, mid, -, -, hlength, hchain⟩ := read_sequence_eq_ok.mp h
      have hprefix := offset_of_length hlength
      have hitems := offset_of_chain ih hchain
      show c.offset + 8 ≤ _
      omega
  | map key val name ihkey ihval =>
      obtain ⟨entries, mid, -, -, hlength, hchain⟩ := read_map_eq_ok.mp h
      have hprefix := offset_of_length hlength
      have hentries : mid.offset + entries.length * 0 ≤ c'.offset := by
        refine offset_of_chain (fun {e c c'} he => ?_) hchain
        obtain ⟨between, hkey, hval⟩ := readEntry_eq_ok.mp he
        have hcostKey := ihkey hkey
        have hcostVal := ihval hval
        omega
      show c.offset + 8 ≤ _
      omega
  | bytes name =>
      obtain ⟨bs, mid, -, -, hlength, hbody⟩ := read_bytes_eq_ok.mp h
      have hprefix := offset_of_length hlength
      have hmid : mid.offset + bs.length = c'.offset := hbody.2.symm
      show c.offset + 8 ≤ _
      omega
  | record name fields ih =>
      obtain ⟨values, -, hfields⟩ := read_record_eq_ok.mp h
      exact fieldSizes_le_of_read (fun f hf _ _ _ _ => ih f hf) hfields

theorem offset_le_of_read {schema : Schema} (h : schema.read gate c = .ok value c') :
    c.offset ≤ c'.offset :=
  Nat.le_of_add_right_le (minSize_le_of_read h)

end SchemaWire.Schema
