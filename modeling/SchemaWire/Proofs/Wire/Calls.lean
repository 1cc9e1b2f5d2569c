import SchemaWire.Proofs.Wire.Writing

/-!
Calls on a sink. However bytes are cut into pushes, and whatever is announced in between, a sink
answers with the number of bytes and ends in the same state. For the sink over a writer this holds
across failures: a run that the writer takes only in part leaves it as single bytes would, of which
one is refused.
-/

namespace SchemaWire

namespace Sink

inductive Call where
  | byte (b : UInt8)
  | block (bs : Bytes)
  | run (bs : Bytes)
  | anticipate (n : Nat)
  deriving Repr, DecidableEq

namespace Call

def bytes : Call → Bytes
  | byte b => [b]
  | block bs | run bs => bs
  | anticipate _ => []

def allBytes (calls : List Call) : Bytes := calls.flatMap bytes

variable {σ : Type} [Sink σ]

/-- An announcement is not answered. -/
def perform : Call → Push σ
  | byte b => Sink.pushByte b
  | block bs => Sink.pushBlock bs
  | run bs => Sink.pushRun bs
  | anticipate n => fun sink => (0, Sink.anticipate n sink)

/-- A sequence of calls; the answers are added up. -/
def performAll (calls : List Call) : Push σ := Push.each perform calls

end Call

/-- The sink depends only on the bytes that it is given, not on how they are pushed. -/
structure BytesOnly (σ : Type) [Sink σ] : Prop where
  /-- calls that push the same bytes are answered alike in all, and leave the same sink -/
  performAll_congr : ∀ calls calls' : List Call, Call.allBytes calls = Call.allBytes calls' →
    ∀ sink : σ, Call.performAll calls sink = Call.performAll calls' sink
  /-- the answers add up to the number of bytes -/
  answer : ∀ (calls : List Call) (sink : σ),
    (Call.performAll calls sink).1 = (Call.allBytes calls).length
  /-- a block is pushed as its bytes are one by one -/
  pushBlock : ∀ (bs : Bytes) (sink : σ), Sink.pushBlock bs sink = Push.each Push.byte bs sink

namespace Faithful

variable {σ : Type} [Sink σ] {feed : Bytes → σ → σ} (h : Sink.Faithful σ feed)

include h

theorem each_apply {α : Type} {item : α → Push σ} {bytes : α → Bytes}
    (hitem : ∀ a sink, item a sink = ((bytes a).length, feed (bytes a) sink)) (as : List α)
    (sink : σ) :
    Push.each item as sink = ((as.flatMap bytes).length, feed (as.flatMap bytes) sink) := by
  induction as generalizing sink with
  | nil =>
      rw [List.flatMap_nil, h.feed_nil]
      rfl
  | cons a as ih =>
      simp only [Push.each, Push.andThen, hitem, ih, List.flatMap_cons, List.length_append,
        h.feed_append]

theorem perform_apply (call : Call) (sink : σ) :
    call.perform sink = (call.bytes.length, feed call.bytes sink) := by
  cases call with
  | byte b => exact h.pushByte b sink
  | block bs => exact h.pushBlock bs sink
  | run bs => exact h.pushRun bs sink
  | anticipate n =>
      show (0, Sink.anticipate n sink) = (0, feed [] sink)
      rw [h.anticipate, h.feed_nil]

theorem performAll_apply (calls : List Call) (sink : σ) :
    Call.performAll calls sink =
      ((Call.allBytes calls).length, feed (Call.allBytes calls) sink) :=
  h.each_apply h.perform_apply calls sink

theorem bytesOnly : BytesOnly σ where
  performAll_congr calls calls' hbytes sink := by
    rw [h.performAll_apply, h.performAll_apply, hbytes]
  answer calls sink := by rw [h.performAll_apply]
  pushBlock bs sink := by
    have hbyte : ∀ (b : UInt8) (sink : σ), Push.byte b sink = ([b].length, feed [b] sink) :=
      h.pushByte
    rw [h.pushBlock, h.each_apply hbyte, List.flatMap_singleton']

end Faithful

end Sink

namespace Latch

/-- The failure that is reported in the end is that of the first write that there was no room for,
and otherwise a failure to flush. -/
theorem finish_write {w : Writer} (hchunk : w.chunk ≠ some 0) (bs : Bytes) :
    ((ofWriter w).write bs).finish =
      if w.room bs.length < bs.length then some w.overflow else w.flush := by
  have hfault := Writer.fault_offer hchunk bs
  simp only [ofWriter, write, finish, Writer.writeAll_eq, Writer.flush_offer, hfault]
  by_cases hover : w.room bs.length < bs.length
  · simp only [if_pos hover]
  · simp only [if_neg hover]

theorem held_write {w : Writer} (hchunk : w.chunk ≠ some 0) (bs : Bytes) :
    ((ofWriter w).write bs).writer.held.toList =
      w.held.toList ++ bs.take (w.room bs.length) := by
  rw [← Writer.held_offer hchunk, ← Writer.writeAll_eq]
  rfl

end Latch

namespace Sink

/-- Buffers, counters and sinks over writers depend only on the bytes, not on how they are pushed,
whatever state they are in; so the answers still add up to the number of bytes when a write has
failed. A buffer holds the bytes behind those that it held before, and a writer as many of them as
it has room for. If these are not all, the failure of the first write that there was no room for is
reported in the end. -/
theorem sinks_bytesOnly :
    BytesOnly Buffer ∧ BytesOnly Counter ∧ BytesOnly Latch ∧
    ∀ calls : List Call,
      let bs := Call.allBytes calls
      (∀ b : Buffer, (Call.performAll calls b).2.toList = b.toList ++ bs) ∧
      ∀ w : Writer, w.chunk ≠ some 0 →
        let l := (Call.performAll calls (Latch.ofWriter w)).2
        l.writer.held.toList = w.held.toList ++ bs.take (w.room bs.length) ∧
        l.finish = if w.room bs.length < bs.length then some w.overflow else w.flush := by
  refine ⟨Buffer.faithful.bytesOnly, Counter.faithful.bytesOnly, Latch.faithful.bytesOnly,
    fun calls => ⟨fun b => ?_, fun w hchunk => ?_⟩⟩
  · rw [Buffer.faithful.performAll_apply]
    exact Array.toList_appendList
  · simp only [Latch.faithful.performAll_apply]
    exact ⟨Latch.held_write hchunk _, Latch.finish_write hchunk _⟩

/-- Eight bytes for a writer that has room for five, takes two at a time and would go on after its
failure: in three pushes, the first of which fits, and in others that are cut elsewhere. -/
theorem sinks_bytesOnly_overfull :
    let calls : List Call := [.block [1, 2, 3], .anticipate 9, .run [4, 5, 6, 7], .byte 8]
    let calls' : List Call := [.byte 1, .run [2, 3, 4, 5], .run [], .byte 6, .block [7, 8]]
    let l := Latch.ofWriter (.new (some 5) (some 2) .recovering)
    Call.allBytes calls = Call.allBytes calls' ∧ l.writer.chunk ≠ some 0 ∧
    Call.performAll calls l = Call.performAll calls' l ∧
    (Call.performAll calls l).1 = 8 ∧
    (Call.performAll calls l).2.writer.held.toList = [1, 2, 3, 4, 5] ∧
    (Call.performAll calls l).2.finish = some .full := by
  intro calls calls' l
  have hbytes : Call.allBytes calls = Call.allBytes calls' := rfl
  have hchunk : l.writer.chunk ≠ some 0 := by decide
  obtain ⟨-, -, hlatch, hheld⟩ := sinks_bytesOnly
  obtain ⟨hheld, hfinish⟩ := (hheld calls).2 l.writer hchunk
  exact ⟨hbytes, hchunk, hlatch.performAll_congr calls calls' hbytes l, hlatch.answer calls l,
    hheld, hfinish⟩

end Sink

end SchemaWire
