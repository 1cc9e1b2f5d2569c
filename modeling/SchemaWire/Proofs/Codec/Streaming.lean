import SchemaWire.Proofs.Codec.Emission
import SchemaWire.Proofs.Wire.Writing

/-!
What an encoder leaves in a writer. Whatever the writer does, it holds a prefix of what the encoder
leaves in a buffer, without a gap: everything if there is room, and otherwise what there is room
for.
-/

namespace SchemaWire.Schema

/-- The bytes that the encoder of a schema leaves in an empty buffer, also when it fails. -/
def pushed (schema : Schema) (value : Value) : Bytes :=
  match schema.write value Buffer.empty with
  | .ok _ buffer | .error _ buffer => buffer.toList

theorem pushed_eq_emit (schema : Schema) (value : Value) :
    schema.pushed value = (schema.emit value).bytes := by
  rw [pushed, write_eq_run Buffer.faithful]
  rcases schema.emit value with ⟨bs, _ | e⟩ <;>
    simp [Emission.run, Buffer.empty, Buffer.append, Buffer.toList]

theorem encode_eq_emit (schema : Schema) (value : Value) :
    schema.encode value =
      match (schema.emit value).fault with
      | some e => .error e
      | none => .ok (schema.emit value).bytes := by
  rw [encode, write_eq_run Buffer.faithful]
  rcases schema.emit value with ⟨bs, _ | e⟩ <;>
    simp [Emission.run, Buffer.empty, Buffer.append, Buffer.toList]

/-- Streaming offers the writer what the encoder pushes, until the first failure. -/
theorem stream_eq_offer (schema : Schema) (value : Value) (w : Writer) :
    schema.stream value w =
      let (failure, w') := w.offer (schema.emit value).bytes
      match (schema.emit value).fault with
      | some e => .error e w'
      | none =>
        match failure with
        | some e => .error (.sink e) w'
        | none =>
          match w'.flush with
          | some e => .error (.sink e) w'
          | none => .ok () w' := by
  rw [stream, write_eq_run Latch.faithful]
  rcases schema.emit value with ⟨bs, _ | e⟩
  · simp only [Emission.run, Latch.ofWriter, Latch.write, Latch.finish, Writer.writeAll_eq]
    rcases w.offer bs with ⟨_ | e, w'⟩
    · cases w'.flush <;> rfl
    · rfl
  · simp only [Emission.run, Latch.ofWriter, Latch.write, Writer.writeAll_eq]

/-- A writer ends up with as much of what the encoder pushes as it has room for, from the front.
A misfit of the value is reported whatever the writer did; otherwise the failure of the first write
that there was no room for, and otherwise a failure to flush. If nothing failed, the writer has
taken the whole encoding. -/
theorem stream_without_gap (schema : Schema) (value : Value) (w : Writer)
    (hchunk : w.chunk ≠ some 0) :
    ∃ w' : Writer,
      w'.held.toList =
        w.held.toList ++ (schema.pushed value).take (w.room (schema.pushed value).length) ∧
      (∀ bs, schema.encode value = .ok bs → schema.pushed value = bs) ∧
      schema.stream value w =
        match schema.encode value with
        | .error e => .error e w'
        | .ok bs =>
          if w.room bs.length < bs.length then .error (.sink w.overflow) w'
          else
            match w.flush with
            | some e => .error (.sink e) w'
            | none => .ok () w' := by
  refine ⟨(w.offer (schema.pushed value)).2, Writer.held_offer hchunk _, ?_, ?_⟩
  · intro bs hencode
    rw [pushed_eq_emit, encode_eq_ok.mp hencode]
    rfl
  · rw [stream_eq_offer, encode_eq_emit, pushed_eq_emit]
    rcases hemit : schema.emit value with ⟨bs, _ | e⟩
    · by_cases hover : w.room bs.length < bs.length
      · simp only [Writer.fault_offer hchunk, if_pos hover]
      · simp only [Writer.fault_offer hchunk, if_neg hover, Writer.flush_offer]
    · rfl

def noteSchema : Schema :=
  .record none [⟨"Text", .scalar .string none, false, []⟩,
    ⟨"Page", .scalar (.num .uint16) none, false, []⟩]

def noteValue : Value := .record [("Text", .text "abc"), ("Page", .num ⟨.uint16, 513#16⟩)]

/-- A writer with room for nine bytes that would take more after its failure holds nine bytes; and
one that holds two already holds seven, although the failure that is reported is the misfit. -/
theorem stream_without_gap_note :
    (∃ w' : Writer, w'.held.toList = [6, 0, 0, 0, 0, 0, 0, 0, 97] ∧
      noteSchema.stream noteValue (.new (some 9) (some 2) .recovering) =
        .error (.sink .full) w') ∧
    ∃ w' : Writer, w'.held.toList = [1, 2, 6, 0, 0, 0, 0, 0, 0] ∧
      noteSchema.stream (.record [("Text", .text "abc")])
          ⟨.ofList [1, 2], some 9, some 4, .stalling⟩ =
        .error (.missingField "Page") w' := by
  constructor
  · obtain ⟨w', hheld, -, hstream⟩ :=
      stream_without_gap noteSchema noteValue (.new (some 9) (some 2) .recovering) (by decide)
    exact ⟨w', hheld, hstream⟩
  · obtain ⟨w', hheld, -, hstream⟩ :=
      stream_without_gap noteSchema (.record [("Text", .text "abc")])
        ⟨.ofList [1, 2], some 9, some 4, .stalling⟩ (by decide)
    exact ⟨w', hheld, hstream⟩

end SchemaWire.Schema
