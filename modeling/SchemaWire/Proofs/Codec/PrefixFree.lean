import SchemaWire.Proofs.Codec.Reading
import SchemaWire.Proofs.Wire.Sequential

/-!
The wire format is prefix-free. Decoding never looks ahead: what it makes of an input is settled by
the bytes that it consumes, and every shorter part of the encoding of a value is reported as an
input that ends too early.
-/

namespace SchemaWire.Schema

open Reader

theorem sequential_readFields {fields : FieldList}
    (h : ∀ f ∈ fields, ∀ gate, Sequential (f.type.read gate)) : Sequential (readFields fields) := by
  induction fields with
  | nil =>
      rw [readFields]
      exact .pure []
  | cons f fields ih =>
      have hfield : Sequential (readField f) := by
        rw [readField]
        split
        · exact .pure _
        · have hread := h f List.mem_cons_self (f.constraints.filter (·.boundsLength))
          exact hread.bind fun value => (sequential_require _ _).bind fun _ => .pure value
      have hrest := ih fun g hg => h g (List.mem_cons_of_mem f hg)
      rw [readFields]
      exact hfield.bind fun value => hrest.map

/-- Reading a value never looks ahead, whatever the bounds on its length. -/
theorem sequential_read (schema : Schema) (gate : List Constraint) :
    Sequential (schema.read gate) := by
  induction schema generalizing gate with
  | scalar k name =>
      have hlength := sequential_gatedLength gate
      cases k with
      | string =>
          rw [read]
          exact hlength.bind fun n => (sequential_text n).map
      | bool =>
          rw [read]
          exact sequential_flag.map
      | num k =>
          rw [read]
          exact (sequential_word k.width).map
  | optional elem ih =>
      rw [read]
      refine sequential_flag.bind fun b => ?_
      cases b with
      | true => exact (ih _).map
      | false => exact .pure Value.absent
  | array n elem name ih =>
      rw [read]
      exact ((ih []).times n).map
  | sequence elem name ih =>
      have hlength := sequential_gatedLength gate
      rw [read]
      exact hlength.bind fun n => ((ih []).times n).map
  | map key val name ihkey ihval =>
      have hentry : Sequential (do return (← read [] key, ← read [] val)) :=
        (ihkey []).bind fun k => (ihval []).map
      have hlength := sequential_gatedLength gate
      rw [read]
      exact hlength.bind fun n => (hentry.times n).map
  | bytes name =>
      have hlength := sequential_gatedLength gate
      rw [read]
      exact hlength.bind fun n => (sequential_take n).map
  | record name fields ih =>
      have hfields := sequential_readFields ih
      rw [read]
      exact hfields.map

/-- Let decoding stop at some offset. If it found a value, every input with the same bytes up to
there decodes to that value and stops there. If it failed for another reason than a lack of input,
every input with the same bytes up to there fails in the same way and stops there. In both cases
every shorter part of these bytes ends too early. If the input itself ended too early, the offset is
reported together with the number of bytes left, which is less than what was asked for. -/
theorem decode_prefix_free (schema : Schema) (input : Bytes) :
    (∀ {value c}, schema.reader (.start input) = .ok value c →
      c.offset ≤ input.length ∧
      (∀ input', input.take c.offset <+: input' →
        schema.reader (.start input') = .ok value ⟨c.offset, input'.drop c.offset⟩) ∧
      ∀ n < c.offset, ∃ place requested remaining c',
        schema.reader (.start (input.take n)) =
          .error (.unexpectedEnd place requested remaining) c') ∧
    (∀ {fault c}, schema.reader (.start input) = .error fault c →
      (∀ place requested remaining, fault ≠ .unexpectedEnd place requested remaining) →
      c.offset ≤ input.length ∧
      (∀ input', input.take c.offset <+: input' →
        schema.reader (.start input') = .error fault ⟨c.offset, input'.drop c.offset⟩) ∧
      ∀ n < c.offset, ∃ place requested remaining c',
        schema.reader (.start (input.take n)) =
          .error (.unexpectedEnd place requested remaining) c') ∧
    (∀ {place requested remaining c},
      schema.reader (.start input) = .error (.unexpectedEnd place requested remaining) c →
      c.offset = place ∧ place + remaining = input.length ∧ remaining < requested) := by
  have hsequential : Sequential schema.reader := schema.sequential_read []
  refine ⟨?_, ?_, ?_⟩
  · intro value c h
    have hstop : schema.reader (.start input) = stop (.ok value) c := h
    obtain ⟨hle, hsame, hparts⟩ := hsequential.settles_start hstop not_lacking_ok
    exact ⟨hle, hsame, fun n hn => (hparts n hn).exists_error⟩
  · intro fault c h hnotEnd
    have hstop : schema.reader (.start input) = stop (.error fault) c := h
    have hlack : ¬ Lacking (.error fault : Except DecodeError Value) :=
      not_lacking_error.mpr hnotEnd
    obtain ⟨hle, hsame, hparts⟩ := hsequential.settles_start hstop hlack
    exact ⟨hle, hsame, fun n hn => (hparts n hn).exists_error⟩
  · intro place requested remaining c h
    obtain ⟨front, ⟨hinput, hoffset⟩, rfl, rfl, hlt⟩ := hsequential.runsOut h
    have hinput : input = front ++ c.rest := hinput
    have hoffset : c.offset = front.length := hoffset.trans (Nat.zero_add _)
    refine ⟨rfl, ?_, hlt⟩
    rw [hoffset, Cursor.remaining, hinput, List.length_append]

def ticketSchema : Schema :=
  .record none
    [⟨"Code", .bytes none, false, [⟨"Code", .minLen 2, false⟩]⟩,
     ⟨"Paid", .optional (.scalar .bool none), false, []⟩]

def ticketBytes : Bytes := [4, 0, 0, 0, 0, 0, 0, 0, 7, 9, 1, 0]

def ticket : Value := .record [("Code", .bytes [7, 9]), ("Paid", .present (.flag false))]

/-- A ticket, one that breaks off behind the length of its code, and one whose code is too short. -/
theorem decode_prefix_free_ticket :
    ticketSchema.reader (.start (ticketBytes ++ [5])) = .ok ticket ⟨12, [5]⟩ ∧
      ticketSchema.reader (.start (ticketBytes ++ [6, 7])) = .ok ticket ⟨12, [6, 7]⟩ ∧
      (∃ place requested remaining c', ticketSchema.reader (.start (ticketBytes.take 9)) =
        .error (.unexpectedEnd place requested remaining) c') ∧
      ticketSchema.reader (.start (2 :: ticketBytes.tail)) =
        .error (.violation ⟨"Code", .minLen 2, false⟩) ⟨8, [7, 9, 1, 0]⟩ ∧
      ticketSchema.reader (.start [2, 0, 0, 0, 0, 0, 0, 0, 3]) =
        .error (.violation ⟨"Code", .minLen 2, false⟩) ⟨8, [3]⟩ ∧
      8 + 1 = (ticketBytes.take 9).length := by
  have hticket : ticketSchema.reader (.start (ticketBytes ++ [5])) = .ok ticket ⟨12, [5]⟩ := rfl
  have hshort : ticketSchema.reader (.start (2 :: ticketBytes.tail)) =
      .error (.violation ⟨"Code", .minLen 2, false⟩) ⟨8, [7, 9, 1, 0]⟩ := rfl
  have hbroken : ticketSchema.reader (.start (ticketBytes.take 9)) =
      .error (.unexpectedEnd 8 2 1) ⟨8, [7]⟩ := rfl
  obtain ⟨-, hsame, hparts⟩ := (decode_prefix_free ticketSchema _).1 hticket
  obtain ⟨-, hfails, -⟩ := (decode_prefix_free ticketSchema _).2.1 hshort nofun
  have hend := (decode_prefix_free ticketSchema _).2.2 hbroken
  exact ⟨hticket, hsame _ ⟨[6, 7], rfl⟩, hparts 9 (by decide), hshort, hfails _ ⟨[3], rfl⟩,
    hend.2.1⟩

/-! ### Whole inputs -/

variable {schema : Schema} {input : Bytes} {value : Value}

/-- What follows a value does not matter to decoding. -/
theorem decode_append (h : schema.decode input = .ok value) (rest : Bytes) :
    schema.decode (input ++ rest) = .ok value := by
  obtain ⟨c, hread⟩ := decode_eq_ok.mp h
  exact decode_eq_ok.mpr ⟨_, (schema.sequential_read []).append hread rest⟩

theorem decodeAll_append (h : schema.decodeAll input = .ok value) {rest : Bytes}
    (hrest : rest ≠ []) : schema.decodeAll (input ++ rest) = .error (.trailing rest.length) := by
  obtain ⟨⟨offset, _⟩, hread, rfl⟩ := decodeAll_eq_ok.mp h
  have hmore := (schema.sequential_read []).append hread rest
  exact decodeAll_eq_error.mpr (.inr ⟨value, ⟨offset, rest⟩, hmore, hrest, rfl⟩)

end SchemaWire.Schema
