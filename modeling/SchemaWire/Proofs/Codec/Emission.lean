import SchemaWire.Proofs.Schema.Records
import SchemaWire.Proofs.Wire.Emission

/-!
What the encoder of a schema pushes for a value. Every sink that depends on the bytes alone is led
through the emission, and for every kind of schema an equivalence says which values have an encoding
and which bytes it is.
-/

namespace SchemaWire

namespace Schema

def emitScalar : Kind → Value → Emission
  | .string, .text s => .done (Bytes.ofLength (Text.utf8 s).length ++ Text.utf8 s)
  | .bool, .flag b => .done [if b then 1 else 0]
  | .num k, .num n =>
    if n.kind = k then .done (Bytes.littleEndian n.kind.width n.word.toNat)
    else .failed (.mismatch (.scalar (.num k)) (Value.num n).form)
  | k, value => .failed (.mismatch (.scalar k) value.form)

mutual

/-- What the encoder of a schema pushes for a value. -/
def emit : Schema → Value → Emission
  | .scalar k _, value => emitScalar k value
  | .optional elem, value =>
    match value with
    | .absent => .done [0]
    | .present inner => .andThen (.done [1]) (emit elem inner)
    | value => .failed (.mismatch .optional value.form)
  | .array n elem _, value =>
    match value with
    | .array items =>
      if items.length = n then .each (emit elem) items
      else .failed (.arrayLength n items.length)
    | value => .failed (.mismatch .array value.form)
  | .sequence elem _, value =>
    match value with
    | .sequence items => .andThen (.done (Bytes.ofLength items.length)) (.each (emit elem) items)
    | value => .failed (.mismatch .sequence value.form)
  | .map key val _, value =>
    match value with
    | .map entries =>
      .andThen (.done (Bytes.ofLength entries.length))
        (.each (fun e => .andThen (emit key e.1) (emit val e.2)) entries)
    | value => .failed (.mismatch .map value.form)
  | .bytes _, value =>
    match value with
    | .bytes bs => .done (Bytes.ofLength bs.length ++ bs)
    | value => .failed (.mismatch .bytes value.form)
  | .record _ fields, value =>
    match value with
    | .record values => emitFields fields values
    | value => .failed (.mismatch .record value.form)

def emitFields : List (Field Schema) → Fields → Emission
  | [], _ => .done []
  | ⟨name, type, skip, _⟩ :: fields, values =>
    if skip then emitFields fields values
    else
      match values.get? name with
      | some value => .andThen (emit type value) (emitFields fields values)
      | none => .failed (.missingField name)

end

attribute [local simp] emitScalar emit emitFields

variable {σ : Type} [Sink σ] {feed : Bytes → σ → σ}

theorem writeScalar_eq_run (h : Sink.Faithful σ feed) (k : Kind) (value : Value) :
    writeScalar k value = (emitScalar k value).run feed := by
  cases k with
  | string =>
      cases value with
      | text s => exact h.push_block _
      | _ => exact h.run_failed _
  | bool =>
      cases value with
      | flag b => exact h.push_flag b
      | _ => exact h.run_failed _
  | num k =>
      cases value with
      | num n =>
          simp only [writeScalar, emitScalar]
          split
          · exact h.push_word _
          · exact h.run_failed _
      | _ => exact h.run_failed _

/-- Writing to a sink leads it through the emission of the value. -/
theorem write_eq_run (h : Sink.Faithful σ feed) (schema : Schema) (value : Value) :
    schema.write value = (schema.emit value).run feed := by
  induction schema generalizing value with
  | scalar k name => rw [write, emit, writeScalar_eq_run h]
  | optional elem ih =>
      cases value with
      | absent => exact h.push_flag false
      | present inner =>
          rw [write, emit, ih, h.push_flag, h.run_andThen]
          rfl
      | _ => exact h.run_failed _
  | array n elem name ih =>
      cases value with
      | array items =>
          simp only [write, emit]
          split
          · exact h.run_each fun v _ => ih v
          · exact h.run_failed _
      | _ => exact h.run_failed _
  | sequence elem name ih =>
      cases value with
      | sequence items =>
          rw [write, emit, h.push_length, h.run_each fun v _ => ih v, h.run_andThen]
      | _ => exact h.run_failed _
  | map key val name ihkey ihval =>
      cases value with
      | map entries =>
          have hentry : ∀ e : Value × Value, Encoder.andThen (write key e.1) (write val e.2) =
              ((emit key e.1).andThen (emit val e.2)).run feed := fun e => by
            rw [ihkey, ihval, h.run_andThen]
          rw [write, emit, h.push_length, h.run_each fun e _ => hentry e, h.run_andThen]
      | _ => exact h.run_failed _
  | bytes name =>
      cases value with
      | bytes bs => exact h.push_announced bs
      | _ => exact h.run_failed _
  | record name fields ih =>
      cases value with
      | record values =>
          rw [write, emit]
          induction fields with
          | nil => exact h.run_nothing
          | cons f fields ihfields =>
              have hfields := ihfields fun g hg => ih g (List.mem_cons_of_mem f hg)
              simp only [writeFields, emitFields, hfields]
              split
              · rfl
              · cases Fields.get? f.name values with
                | none => exact h.run_failed _
                | some v => simp only [ih f List.mem_cons_self, h.run_andThen]
      | _ => exact h.run_failed _

/-! ### Which values have an encoding, and which bytes it is -/

section Inversion

variable {value : Value} {bs : Bytes}

theorem emit_string_eq_done {name : Option String} :
    emit (.scalar .string name) value = .done bs ↔
      ∃ s, value = .text s ∧ bs = Bytes.ofLength (Text.utf8 s).length ++ Text.utf8 s := by
  cases value with
  | text s => simpa using eq_comm
  | _ => simp

theorem emit_bool_eq_done {name : Option String} :
    emit (.scalar .bool name) value = .done bs ↔
      ∃ b, value = .flag b ∧ bs = [if b then 1 else 0] := by
  cases value with
  | flag b => simpa using eq_comm
  | _ => simp

theorem emit_num_eq_done {k : NumKind} {name : Option String} :
    emit (.scalar (.num k) name) value = .done bs ↔
      ∃ w : BitVec k.bits, value = .num ⟨k, w⟩ ∧ bs = Bytes.littleEndian k.width w.toNat := by
  cases value with
  | num n =>
      obtain ⟨kind, w⟩ := n
      by_cases hkind : kind = k
      · subst hkind
        simpa using eq_comm
      · simp [hkind]
  | _ => simp

theorem emit_optional_eq_done {elem : Schema} :
    emit (.optional elem) value = .done bs ↔
      (value = .absent ∧ bs = [0]) ∨
        ∃ inner back, value = .present inner ∧ elem.emit inner = .done back ∧ bs = [1] ++ back := by
  cases value with
  | absent => simpa using eq_comm
  | present inner => simp [Emission.andThen_eq_done]
  | _ => simp

theorem emit_array_eq_done {n : Nat} {elem : Schema} {name : Option String} :
    emit (.array n elem name) value = .done bs ↔
      ∃ items, value = .array items ∧ items.length = n ∧
        Emission.each elem.emit items = .done bs := by
  cases value with
  | array items =>
      by_cases hlen : items.length = n <;> simp [hlen]
  | _ => simp

theorem emit_sequence_eq_done {elem : Schema} {name : Option String} :
    emit (.sequence elem name) value = .done bs ↔
      ∃ items body, value = .sequence items ∧ Emission.each elem.emit items = .done body ∧
        bs = Bytes.ofLength items.length ++ body := by
  cases value with
  | sequence items => simp [Emission.andThen_eq_done]
  | _ => simp

def emitEntry (key val : Schema) (e : Value × Value) : Emission :=
  (key.emit e.1).andThen (val.emit e.2)

theorem emit_map_eq_done {key val : Schema} {name : Option String} :
    emit (.map key val name) value = .done bs ↔
      ∃ entries body, value = .map entries ∧
        Emission.each (emitEntry key val) entries = .done body ∧
        bs = Bytes.ofLength entries.length ++ body := by
  cases value with
  | map entries =>
      simp only [emit, Emission.andThen_eq_done, Emission.done_inj, Value.map.injEq]
      constructor
      · rintro ⟨front, back, rfl, hback, rfl⟩
        exact ⟨entries, back, rfl, hback, rfl⟩
      · rintro ⟨_, body, rfl, hbody, rfl⟩
        exact ⟨_, body, rfl, hbody, rfl⟩
  | _ => simp

theorem emit_bytes_eq_done {name : Option String} :
    emit (.bytes name) value = .done bs ↔
      ∃ body, value = .bytes body ∧ bs = Bytes.ofLength body.length ++ body := by
  cases value with
  | bytes body => simpa using eq_comm
  | _ => simp

theorem emit_record_eq_done {name : Option String} {fields : FieldList} :
    emit (.record name fields) value = .done bs ↔
      ∃ values, value = .record values ∧ emitFields fields values = .done bs := by
  cases value with
  | _ => simp

theorem emitFields_of_skip {f : Field Schema} (hskip : f.skip = true) (fields : FieldList)
    (values : Fields) : emitFields (f :: fields) values = emitFields fields values := by
  rw [emitFields, if_pos hskip]

theorem emitFields_of_get? {f : Field Schema} (hskip : f.skip = false) {fields : FieldList}
    {values : Fields} {v : Value} (hget : values.get? f.name = some v) :
    emitFields (f :: fields) values = (f.type.emit v).andThen (emitFields fields values) := by
  rw [emitFields, if_neg (by simp [hskip]), hget]

theorem emitFields_eq_done {f : Field Schema} (hskip : f.skip = false) {fields : FieldList}
    {values : Fields} :
    emitFields (f :: fields) values = .done bs ↔
      ∃ v front back, values.get? f.name = some v ∧ f.type.emit v = .done front ∧
        emitFields fields values = .done back ∧ bs = front ++ back := by
  simp only [emitFields, hskip, Bool.false_eq_true, if_false]
  cases Fields.get? f.name values with
  | none => simp
  | some v => simp [Emission.andThen_eq_done]

theorem exists_of_emitFields {fields : FieldList} {values : Fields}
    (h : emitFields fields values = .done bs) :
    ∀ f ∈ fields, f.skip = false →
      ∃ v part, values.get? f.name = some v ∧ f.type.emit v = .done part := by
  induction fields generalizing bs with
  | nil => exact fun f hf => by cases hf
  | cons f fields ih =>
      cases hskip : f.skip with
      | true =>
          rw [emitFields_of_skip hskip] at h
          refine List.forall_mem_cons.mpr ⟨fun hfalse => ?_, ih h⟩
          rw [hskip] at hfalse
          cases hfalse
      | false =>
          obtain ⟨v, front, back, hget, hfront, hback, -⟩ := (emitFields_eq_done hskip).mp h
          exact List.forall_mem_cons.mpr ⟨fun _ => ⟨v, front, hget, hfront⟩, ih hback⟩

end Inversion

theorem encode_eq_ok {schema : Schema} {value : Value} {bs : Bytes} :
    schema.encode value = .ok bs ↔ schema.emit value = .done bs := by
  rw [encode, write_eq_run Buffer.faithful]
  rcases schema.emit value with ⟨out, _ | e⟩
  · simp [Emission.run, Emission.done, Buffer.empty, Buffer.toList, Buffer.append]
  · simp [Emission.run, Emission.done]

end Schema

end SchemaWire
