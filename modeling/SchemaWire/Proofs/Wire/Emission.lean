import SchemaWire.Codec.Encode
import SchemaWire.Proofs.Wire.ZigZag

/-!
What an encoder pushes, told apart from where it pushes it: the bytes, in order, and the failure
that stops it, if any. Every sink whose state depends on nothing but the bytes it was given ends up
where these bytes lead it.
-/

namespace SchemaWire

/-- The bytes that are pushed, and the failure that ends the pushing. -/
structure Emission where
  bytes : Bytes
  fault : Option EncodeError

namespace Emission

def done (bs : Bytes) : Emission := ⟨bs, none⟩

def failed (e : EncodeError) : Emission := ⟨[], some e⟩

def andThen (first second : Emission) : Emission :=
  match first.fault with
  | none => ⟨first.bytes ++ second.bytes, second.fault⟩
  | some _ => first

def each {α : Type} (item : α → Emission) : List α → Emission
  | [] => done []
  | a :: as => andThen (item a) (each item as)

theorem andThen_eq_done {first second : Emission} {bs : Bytes} :
    first.andThen second = done bs ↔
      ∃ front back, first = done front ∧ second = done back ∧ bs = front ++ back := by
  rcases first with ⟨front, _ | e⟩
  · rcases second with ⟨back, fault⟩
    simp only [andThen, done, Emission.mk.injEq]
    constructor
    · rintro ⟨rfl, rfl⟩
      exact ⟨front, back, ⟨rfl, trivial⟩, ⟨rfl, rfl⟩, rfl⟩
    · rintro ⟨_, _, ⟨rfl, -⟩, ⟨rfl, rfl⟩, rfl⟩
      trivial
  · simp [andThen, done]

@[simp] theorem failed_ne_done {e : EncodeError} {bs : Bytes} : failed e ≠ done bs := nofun

@[simp] theorem done_inj {as bs : Bytes} : done as = done bs ↔ as = bs := by simp [done]

/-! ### Sinks -/

variable {σ : Type}

/-- Leads a sink through an emission; the answer counts the bytes. -/
def run (feed : Bytes → σ → σ) (e : Emission) : Encoder σ Nat := fun sink =>
  match e.fault with
  | none => .ok e.bytes.length (feed e.bytes sink)
  | some fault => .error fault (feed e.bytes sink)

end Emission

/-- The state of a sink depends only on the bytes it was given, however they were pushed, and it
answers every push with the number of bytes. -/
structure Sink.Faithful (σ : Type) [Sink σ] (feed : Bytes → σ → σ) : Prop where
  feed_nil : ∀ s, feed [] s = s
  feed_append : ∀ as bs s, feed (as ++ bs) s = feed bs (feed as s)
  pushByte : ∀ b (s : σ), Sink.pushByte b s = (1, feed [b] s)
  pushBlock : ∀ bs (s : σ), Sink.pushBlock bs s = (bs.length, feed bs s)
  pushRun : ∀ bs (s : σ), Sink.pushRun bs s = (bs.length, feed bs s)
  anticipate : ∀ n (s : σ), Sink.anticipate n s = s

namespace Sink.Faithful

variable {σ : Type} [Sink σ] {feed : Bytes → σ → σ} (h : Sink.Faithful σ feed)

include h

open Encoder

theorem push_byte (b : UInt8) : push (.byte b) = (Emission.done [b]).run feed := by
  funext s
  show EStateM.Result.ok (Sink.pushByte b s).1 (Sink.pushByte b s).2 = _
  rw [h.pushByte]
  rfl

theorem push_flag (b : Bool) : push (.flag b) = (Emission.done [if b then 1 else 0]).run feed :=
  h.push_byte _

theorem push_word {n : Nat} (x : BitVec (8 * n)) :
    push (.word x) = (Emission.done (Bytes.littleEndian n x.toNat)).run feed := by
  funext s
  show EStateM.Result.ok (Sink.pushBlock (Bytes.littleEndian n x.toNat) s).1
    (Sink.pushBlock (Bytes.littleEndian n x.toNat) s).2 = _
  rw [h.pushBlock]
  rfl

theorem push_length (n : Nat) : push (.length n) = (Emission.done (Bytes.ofLength n)).run feed :=
  h.push_word _

theorem block_apply (bs : Bytes) (s : σ) :
    Push.block bs s = (8 + bs.length, feed (Bytes.ofLength bs.length ++ bs) s) := by
  show ((Sink.pushBlock (Bytes.ofLength bs.length) s).1 +
      (Sink.pushRun bs (Sink.pushBlock (Bytes.ofLength bs.length) s).2).1,
    (Sink.pushRun bs (Sink.pushBlock (Bytes.ofLength bs.length) s).2).2) = _
  rw [h.pushBlock, h.pushRun, Bytes.length_ofLength, h.feed_append]

theorem push_block (bs : Bytes) :
    push (.block bs) = (Emission.done (Bytes.ofLength bs.length ++ bs)).run feed := by
  funext s
  simp [push, h.block_apply, Emission.run, Emission.done]

theorem push_announced (bs : Bytes) :
    push (.announced bs) = (Emission.done (Bytes.ofLength bs.length ++ bs)).run feed := by
  funext s
  simp [push, Push.announced, h.block_apply, h.anticipate, Emission.run, Emission.done]

theorem run_andThen (first second : Emission) :
    Encoder.andThen (first.run feed) (second.run feed) = (first.andThen second).run feed := by
  funext s
  rcases first with ⟨front, _ | e⟩
  · rcases second with ⟨back, _ | e⟩
    · simp [Encoder.andThen, Emission.run, Emission.andThen, h.feed_append, bind, pure,
        EStateM.bind, EStateM.pure]
    · simp [Encoder.andThen, Emission.run, Emission.andThen, h.feed_append, bind, EStateM.bind]
  · simp [Encoder.andThen, Emission.run, Emission.andThen, bind, EStateM.bind]

theorem run_nothing : (pure 0 : Encoder σ Nat) = (Emission.done []).run feed := by
  funext s
  show EStateM.Result.ok 0 s = .ok 0 (feed [] s)
  rw [h.feed_nil]

theorem run_failed (e : EncodeError) :
    (throw e : Encoder σ Nat) = (Emission.failed e).run feed := by
  funext s
  show EStateM.Result.error e s = .error e (feed [] s)
  rw [h.feed_nil]

theorem run_each {α : Type} {item : α → Encoder σ Nat} {emission : α → Emission} {as : List α}
    (hitem : ∀ a ∈ as, item a = (emission a).run feed) :
    Encoder.each item as = (Emission.each emission as).run feed := by
  induction as with
  | nil => exact h.run_nothing
  | cons a as ih =>
      have hhead := hitem a List.mem_cons_self
      have htail := ih fun x hx => hitem x (List.mem_cons_of_mem a hx)
      rw [Encoder.each, Emission.each, hhead, htail, h.run_andThen]

end Sink.Faithful

namespace Buffer

theorem foldl_push (bs : Bytes) (b : Buffer) : bs.foldl push b = b.append bs := by
  induction bs generalizing b with
  | nil => simp [append]
  | cons x bs ih => simp [ih, append, push]

theorem faithful : Sink.Faithful Buffer fun bs b => b.append bs where
  feed_nil b := by simp [append]
  feed_append as bs b := by
    have hbytes : b.bytes ++ (as ++ bs) = b.bytes ++ as ++ bs := Array.toList_inj.mp (by simp)
    simp only [append, hbytes]
  pushByte x b := by simp [Sink.pushByte, push, append]
  pushBlock bs b := by simp [Sink.pushBlock, foldl_push]
  pushRun bs b := rfl
  anticipate n b := rfl

end Buffer

theorem Counter.faithful : Sink.Faithful Counter fun _ c => c where
  feed_nil _ := rfl
  feed_append _ _ _ := rfl
  pushByte _ _ := rfl
  pushBlock _ _ := rfl
  pushRun _ _ := rfl
  anticipate _ _ := rfl

end SchemaWire
