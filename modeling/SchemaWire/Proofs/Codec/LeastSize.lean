import SchemaWire.Proofs.Codec.Cost
import SchemaWire.Proofs.Codec.Emission
import SchemaWire.Proofs.Value.Record

/-!
The least size of a schema. It is what the zero value takes, as far as sizes are counted, and no
value takes less: neither has any a shorter encoding, nor is any read from fewer bytes.
-/

namespace SchemaWire.Schema

/-! ### No encoding is shorter -/

section Encoding

variable {schema : Schema} {value : Value} {bs : Bytes}

theorem length_le_of_each {α : Type} {emission : α → Emission} {w : Nat} {as : List α}
    (hitem : ∀ {a bs}, emission a = .done bs → w ≤ bs.length)
    (h : Emission.each emission as = .done bs) : as.length * w ≤ bs.length := by
  induction as generalizing bs with
  | nil => simp
  | cons a as ih =>
      obtain ⟨front, back, hfront, hback, rfl⟩ := Emission.andThen_eq_done.mp h
      have hhead := hitem hfront
      have htail := ih hback
      rw [List.length_cons, List.length_append, Nat.add_mul, Nat.one_mul]
      omega

theorem fieldSizes_le_of_emitFields {fields : FieldList} {values : Fields}
    (hemit : ∀ f ∈ fields, ∀ {v bs}, f.type.emit v = .done bs → f.type.minSize ≤ bs.length)
    (h : emitFields fields values = .done bs) : fieldSizes fields ≤ bs.length := by
  induction fields generalizing bs with
  | nil => exact Nat.zero_le _
  | cons f fields ih =>
      have ih := fun {bs} => @ih bs fun g hg => hemit g (List.mem_cons_of_mem f hg)
      rw [fieldSizes]
      cases hskip : f.skip with
      | true =>
          rw [emitFields_of_skip hskip] at h
          exact ih h
      | false =>
          obtain ⟨v, front, back, -, hfront, hback, rfl⟩ := (emitFields_eq_done hskip).mp h
          have hhead := hemit f List.mem_cons_self hfront
          have htail := ih hback
          rw [if_neg Bool.false_ne_true, List.length_append]
          omega

theorem minSize_le_of_emit (h : schema.emit value = .done bs) : schema.minSize ≤ bs.length := by
  induction schema generalizing value bs with
  | scalar k name =>
      cases k with
      | string =>
          obtain ⟨s, -, rfl⟩ := emit_string_eq_done.mp h
          rw [List.length_append, Bytes.length_ofLength]
          exact Nat.le_add_right 8 _
      | bool =>
          obtain ⟨b, -, rfl⟩ := emit_bool_eq_done.mp h
          exact Nat.le_refl 1
      | num k =>
          obtain ⟨w, -, rfl⟩ := emit_num_eq_done.mp h
          rw [Bytes.length_littleEndian]
          exact Nat.le_refl k.width
  | optional elem ih =>
      rcases emit_optional_eq_done.mp h with ⟨-, rfl⟩ | ⟨inner, back, -, -, rfl⟩
      · exact Nat.le_refl 1
      · exact Nat.le_add_left 1 back.length
  | array n elem name ih =>
      obtain ⟨items, -, rfl, hitems⟩ := emit_array_eq_done.mp h
      have hlength := length_le_of_each ih hitems
      rw [minSize]
      omega
  | sequence elem name ih =>
      obtain ⟨items, body, -, -, rfl⟩ := emit_sequence_eq_done.mp h
      rw [List.length_append, Bytes.length_ofLength]
      exact Nat.le_add_right 8 _
  | map key val name ihkey ihval =>
      obtain ⟨entries, body, -, -, rfl⟩ := emit_map_eq_done.mp h
      rw [List.length_append, Bytes.length_ofLength]
      exact Nat.le_add_right 8 _
  | bytes name =>
      obtain ⟨body, -, rfl⟩ := emit_bytes_eq_done.mp h
      rw [List.length_append, Bytes.length_ofLength]
      exact Nat.le_add_right 8 _
  | record name fields ih =>
      obtain ⟨values, -, hfields⟩ := emit_record_eq_done.mp h
      exact fieldSizes_le_of_emitFields (fun f hf _ _ => ih f hf) hfields

end Encoding

/-! ### The zero value -/

theorem min_mul_min (limit n size : Nat) :
    min limit (n * min limit size) = min limit (n * size) := by
  rcases Nat.le_total size limit with hle | hge
  · rw [Nat.min_eq_right hle]
  · rw [Nat.min_eq_left hge]
    rcases Nat.eq_zero_or_pos n with rfl | hpos
    · rw [Nat.zero_mul, Nat.zero_mul]
    · have hlimit : limit ≤ n * limit := Nat.le_mul_of_pos_left limit hpos
      have hsize : n * limit ≤ n * size := Nat.mul_le_mul_left n hge
      omega

theorem each_replicate {α : Type} {emission : α → Emission} {a : α} {bs : Bytes}
    (h : emission a = .done bs) (n : Nat) :
    Emission.each emission (List.replicate n a) = .done (List.replicate n bs).flatten := by
  induction n with
  | zero => rfl
  | succ n ih => exact Emission.andThen_eq_done.mpr ⟨bs, _, h, ih, rfl⟩

theorem map_fst_zeroFields (fields : FieldList) :
    (zeroFields fields).map (·.1) = fields.map (·.name) := by
  rw [zeroFields_eq_map, List.map_map]
  rfl

theorem mem_zeroFields {fields : FieldList} :
    ∀ f ∈ fields, (f.name, f.type.zero) ∈ zeroFields fields := by
  intro f hf
  rw [zeroFields_eq_map]
  exact List.mem_map_of_mem hf

theorem get?_zeroFields {fields : FieldList} (hnames : (fields.map (·.name)).Nodup) :
    ∀ f ∈ fields, Fields.get? f.name (zeroFields fields) = some f.type.zero := by
  rw [← map_fst_zeroFields] at hnames
  exact fun f hf => Fields.get?_of_mem hnames (mem_zeroFields f hf)

/-- The zero value has an encoding, of the least size as far as sizes are counted. -/
def ZeroFits (schema : Schema) : Prop :=
  ∃ bs, schema.emit schema.zero = .done bs ∧ schema.minSize = min sizeLimit bs.length

theorem zeroFits_fields {fields : FieldList} {values : Fields}
    (htypes : ∀ f ∈ fields, f.type.ZeroFits)
    (hget : ∀ f ∈ fields, values.get? f.name = some f.type.zero) :
    ∃ bs, emitFields fields values = .done bs ∧ fieldSizes fields = min sizeLimit bs.length := by
  induction fields with
  | nil => exact ⟨[], rfl, rfl⟩
  | cons f fields ih =>
      obtain ⟨⟨front, hfront, hsize⟩, htypes⟩ := List.forall_mem_cons.mp htypes
      obtain ⟨hhead, hget⟩ := List.forall_mem_cons.mp hget
      obtain ⟨back, hback, hsizes⟩ := ih htypes hget
      rw [fieldSizes]
      cases hskip : f.skip with
      | true =>
          rw [emitFields_of_skip hskip, if_pos rfl]
          exact ⟨back, hback, hsizes⟩
      | false =>
          refine ⟨front ++ back, ?_, ?_⟩
          · exact (emitFields_eq_done hskip).mpr ⟨_, front, back, hhead, hfront, hback, rfl⟩
          · rw [if_neg Bool.false_ne_true, hsize, hsizes, List.length_append]
            omega

theorem zeroFits_of_distinctNames {schema : Schema} (hnames : schema.DistinctNames) :
    schema.ZeroFits := by
  induction schema with
  | scalar k name =>
      cases k with
      | string => exact ⟨_, rfl, rfl⟩
      | bool => exact ⟨_, rfl, rfl⟩
      | num k =>
          refine ⟨_, emit_num_eq_done.mpr ⟨0, rfl, rfl⟩, ?_⟩
          rw [Bytes.length_littleEndian]
          cases k <;> rfl
  | optional | sequence | map | bytes => exact ⟨_, rfl, rfl⟩
  | array n elem name ih =>
      obtain ⟨bs, hemit, hsize⟩ := ih hnames
      refine ⟨(List.replicate n bs).flatten, ?_, ?_⟩
      · exact emit_array_eq_done.mpr ⟨_, rfl, List.length_replicate, each_replicate hemit n⟩
      · have hlength : (List.replicate n bs).flatten.length = n * bs.length := by simp
        rw [minSize, hsize, min_mul_min, hlength]
  | record name fields ih =>
      have htypes := fun f hf => ih f hf (eachField_iff.mp hnames.2 f hf)
      obtain ⟨bs, hemit, hsize⟩ := zeroFits_fields htypes (get?_zeroFields hnames.1)
      exact ⟨bs, emit_record_eq_done.mpr ⟨_, rfl, hemit⟩, hsize⟩

/-- The least size of a schema is exact. The zero value has an encoding, and its size is the least
size of the schema unless it is beyond what is counted; every encoding takes at least as much, and
so does whatever a value is read from. -/
theorem minSize_exact {schema : Schema} (hnames : schema.DistinctNames) :
    (∃ bs, schema.encode schema.zero = .ok bs ∧ schema.minSize = min sizeLimit bs.length) ∧
    (∀ {value bs}, schema.encode value = .ok bs → schema.minSize ≤ bs.length) ∧
    (∀ {value c c'}, schema.reader c = .ok value c' → c.offset + schema.minSize ≤ c'.offset) := by
  refine ⟨?_, fun h => minSize_le_of_emit (encode_eq_ok.mp h), fun h => minSize_le_of_read h⟩
  obtain ⟨bs, hemit, hsize⟩ := zeroFits_of_distinctNames hnames
  exact ⟨bs, encode_eq_ok.mpr hemit, hsize⟩

/-- A record of which one field does not travel, and so much of another that its size is beyond what
is counted. -/
def parcelSchema : Schema :=
  .record none
    [⟨"Weight", .scalar (.num .uint32) none, false, []⟩,
     ⟨"Label", .scalar .string none, true, []⟩,
     ⟨"Slots", .array 3 (.optional (.scalar .string none)) none, false, []⟩]

def shipmentSchema : Schema :=
  .record none
    [⟨"Parcels", .array sizeLimit parcelSchema none, false, []⟩,
     ⟨"Seal", .bytes none, false, []⟩]

theorem minSize_exact_parcel :
    parcelSchema.DistinctNames ∧ parcelSchema.encode parcelSchema.zero = .ok [0, 0, 0, 0, 0, 0, 0] ∧
    parcelSchema.minSize = 7 ∧
    (∀ {value bs}, parcelSchema.encode value = .ok bs → 7 ≤ bs.length) ∧
    shipmentSchema.DistinctNames ∧ shipmentSchema.minSize = sizeLimit ∧
    ∃ bs, shipmentSchema.encode shipmentSchema.zero = .ok bs ∧
      sizeLimit = min sizeLimit bs.length := by
  have hparcel : parcelSchema.DistinctNames :=
    ⟨by decide, trivial, trivial, trivial, trivial⟩
  have hshipment : shipmentSchema.DistinctNames := ⟨by decide, hparcel, trivial, trivial⟩
  obtain ⟨-, hleast, -⟩ := minSize_exact hparcel
  obtain ⟨hzero, -⟩ := minSize_exact hshipment
  exact ⟨hparcel, rfl, rfl, hleast, hshipment, rfl, hzero⟩

end SchemaWire.Schema
