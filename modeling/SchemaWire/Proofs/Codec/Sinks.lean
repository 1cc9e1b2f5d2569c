import SchemaWire.Proofs.Codec.Streaming
import SchemaWire.Proofs.Static.Agreement

/-!
One encoder on different sinks. A buffer, a counter and a writer that never fails get the same
answer from it: the failure of the value, or the number of bytes of its encoding. What a buffer or
such a writer holds afterwards is what it held before and then the bytes that were pushed, and these
depend on nothing but the value. Static values are pushed under the same law, without failures.
-/

namespace SchemaWire

namespace Encoder

variable {σ α : Type}

/-- The answer of an encoder that starts on a sink, without the sink that it leaves. -/
def answer (act : Encoder σ α) (sink : σ) : Except EncodeError α :=
  match act sink with
  | .ok a _ => .ok a
  | .error e _ => .error e

/-- The sink that an encoder leaves, also when it fails. -/
def left (act : Encoder σ α) (sink : σ) : σ :=
  match act sink with
  | .ok _ sink | .error _ sink => sink

end Encoder

/-! ### Sinks that depend on the bytes alone -/

namespace Sink.Faithful

variable {σ : Type} [Sink σ] {feed : Bytes → σ → σ} (h : Sink.Faithful σ feed)

include h

theorem answer_write (schema : Schema) (value : Value) (sink : σ) :
    (schema.write value).answer sink = (schema.encode value).map List.length := by
  rw [Encoder.answer, Schema.write_eq_run h, Schema.encode_eq_emit]
  rcases schema.emit value with ⟨bs, _ | e⟩ <;> rfl

/-- The sink is left where the bytes lead it that would go into an empty buffer. -/
theorem left_write (schema : Schema) (value : Value) (sink : σ) :
    (schema.write value).left sink = feed (schema.pushed value) sink := by
  rw [Encoder.left, Schema.write_eq_run h, Schema.pushed_eq_emit]
  rcases schema.emit value with ⟨bs, _ | e⟩ <;> rfl

theorem write_static (t : StaticType) (x : t.Carrier) (sink : σ) :
    t.write x sink = ((t.encode x).length, feed (t.encode x) sink) := by
  have hemit := Schema.encode_eq_ok.mp (StaticType.encode_toValue t x)
  have hpush : Encoder.push (t.write x) sink =
      EStateM.Result.ok (t.encode x).length (feed (t.encode x) sink) := by
    rw [← StaticType.write_toValue, Schema.write_eq_run h, hemit]
    rfl
  obtain ⟨hcount, hsink⟩ := EStateM.Result.ok.inj hpush
  exact Prod.ext hcount hsink

end Sink.Faithful

/-! ### Writers that never fail -/

namespace Writer

/-- The writer has room for everything, takes at least one byte at a time and can be flushed. -/
structure Unfailing (w : Writer) : Prop where
  capacity : w.capacity = none
  chunk : w.chunk ≠ some 0
  mode : w.mode ≠ .unflushable

theorem Unfailing.offer {w : Writer} (h : w.Unfailing) (bs : Bytes) :
    w.offer bs = (none, w.take bs) := by
  have hspare : w.spare = none := by rw [spare, if_neg h.chunk, h.capacity, Option.map_none]
  rw [Writer.offer, hspare, limited_none, if_pos rfl]

theorem Unfailing.write {w : Writer} (h : w.Unfailing) (bs : Bytes) :
    (Latch.ofWriter w).write bs = Latch.ofWriter (w.take bs) := by
  simp only [Latch.ofWriter, Latch.write, writeAll_eq, h.offer]

theorem Unfailing.flush {w : Writer} (h : w.Unfailing) : w.flush = none :=
  if_neg h.mode

end Writer

namespace Schema

/-- Streaming to a writer that never fails ends as encoding does, and the writer has taken what was
pushed. -/
theorem stream_of_unfailing {w : Writer} (h : w.Unfailing) (schema : Schema) (value : Value) :
    schema.stream value w =
      match schema.encode value with
      | .ok _ => .ok () (w.take (schema.pushed value))
      | .error e => .error e (w.take (schema.pushed value)) := by
  have hflush (bs : Bytes) : (w.take bs).flush = none := h.flush
  rw [stream_eq_offer, encode_eq_emit, pushed_eq_emit]
  rcases schema.emit value with ⟨bs, _ | e⟩
  · simp only [h.offer, hflush]
  · simp only [h.offer]

theorem encodedSize_eq_answer (schema : Schema) (value : Value) :
    schema.encodedSize value = (schema.write value).answer Counter.mk := by
  rw [encodedSize, Encoder.answer]
  cases schema.write value Counter.mk <;> rfl

/-- Buffers, counters and writers that never fail agree on every value, whether or not it fits the
schema: on the answer, and on the bytes that come behind those that were there before. A value that
has an encoding pushes the encoding; of one that has none the bytes before the misfit are left
behind. Static values are counted and pushed alike. -/
theorem sinks_agree (schema : Schema) (value : Value) :
    (∀ bs, schema.encode value = .ok bs → schema.pushed value = bs) ∧
    (∀ buffer : Buffer,
      (schema.write value).answer buffer = (schema.encode value).map List.length ∧
      (schema.write value).left buffer = buffer.append (schema.pushed value)) ∧
    schema.encodedSize value = (schema.encode value).map List.length ∧
    (∀ w : Writer, w.Unfailing →
      (schema.write value).answer (Latch.ofWriter w) = (schema.encode value).map List.length ∧
      ∃ w' : Writer, w'.held = w.held.append (schema.pushed value) ∧
        schema.stream value w =
          match schema.encode value with
          | .ok _ => .ok () w'
          | .error e => .error e w') ∧
    ∀ (t : StaticType) (x : t.Carrier),
      (∀ buffer : Buffer, t.write x buffer = ((t.encode x).length, buffer.append (t.encode x))) ∧
      t.encodedSize x = (t.encode x).length ∧
      ∀ w : Writer, w.Unfailing →
        ∃ w' : Writer, w'.held = w.held.append (t.encode x) ∧
          t.write x (Latch.ofWriter w) = ((t.encode x).length, Latch.ofWriter w') := by
  refine ⟨fun bs hencode => ?_, fun buffer => ⟨?_, ?_⟩, ?_, fun w hw => ⟨?_, ?_⟩, fun t x => ?_⟩
  · rw [pushed_eq_emit, encode_eq_ok.mp hencode]
    rfl
  · exact Buffer.faithful.answer_write schema value buffer
  · exact Buffer.faithful.left_write schema value buffer
  · rw [encodedSize_eq_answer, Counter.faithful.answer_write]
  · exact Latch.faithful.answer_write schema value (Latch.ofWriter w)
  · exact ⟨w.take (schema.pushed value), rfl, stream_of_unfailing hw schema value⟩
  · refine ⟨fun buffer => Buffer.faithful.write_static t x buffer, ?_, fun w hw => ?_⟩
    · exact congrArg Prod.fst (Counter.faithful.write_static t x Counter.mk)
    · refine ⟨w.take (t.encode x), rfl, ?_⟩
      rw [Latch.faithful.write_static, hw.write]

/-- A note without its page leaves its text behind, on a buffer and on a writer that takes two bytes
at a time; and a table of static values is counted as it is pushed. -/
theorem sinks_agree_note :
    (Writer.new none (some 2) .refusing).Unfailing ∧
    (noteSchema.write (.record [("Text", .text "ab")])).left (Buffer.ofList [7]) =
      .ofList [7, 4, 0, 0, 0, 0, 0, 0, 0, 97, 98] ∧
    noteSchema.encodedSize (.record [("Text", .text "ab")]) = .error (.missingField "Page") ∧
    (∃ w' : Writer, w'.held = .ofList [4, 0, 0, 0, 0, 0, 0, 0, 97, 98] ∧
      noteSchema.stream (.record [("Text", .text "ab")]) (.new none (some 2) .refusing) =
        .error (.missingField "Page") w') ∧
    StaticType.pairsType.encodedSize StaticType.pairsTable = 14 := by
  have hw : (Writer.new none (some 2) .refusing).Unfailing := ⟨rfl, by decide, by decide⟩
  obtain ⟨-, hbuffer, hsize, hwriter, hstatic⟩ :=
    sinks_agree noteSchema (.record [("Text", .text "ab")])
  obtain ⟨-, w', hheld, hstream⟩ := hwriter _ hw
  have hcount := (hstatic StaticType.pairsType StaticType.pairsTable).2.1
  exact ⟨hw, (hbuffer (.ofList [7])).2, hsize, ⟨w', hheld, hstream⟩, hcount⟩

end Schema

end SchemaWire
