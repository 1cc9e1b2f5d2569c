import SchemaWire.Proofs.Wire.Emission

/-!
What a writer holds after it was offered bytes, and what the sink over it does with that.

In whatever pieces a writer takes what it is offered, it takes a prefix: all bytes if it has room
for them, and otherwise those it has room for, before it fails. The sink keeps the failure, so it
ends in the same state whether two runs of bytes are pushed one after the other or both at once.
-/

namespace SchemaWire

theorem Buffer.size_append (b : Buffer) (bs : Bytes) :
    (b.append bs).bytes.size = b.bytes.size + bs.length := by
  simp [append, ← Array.length_toList]

namespace Writer

@[simp] theorem limited_none (n : Nat) : limited none n = n := rfl

@[simp] theorem limited_some (most n : Nat) : limited (some most) n = min most n := rfl

theorem limited_le (limit : Option Nat) (n : Nat) : limited limit n ≤ n := by
  cases limit with
  | none => exact Nat.le_refl n
  | some most => exact Nat.min_le_right most n

/-- How many more bytes the writer takes, without limit if absent. One that takes no byte at a time
takes none at all. -/
def spare (w : Writer) : Option Nat :=
  if w.chunk = some 0 then some 0 else w.capacity.map (· - w.held.bytes.size)

def take (w : Writer) (bs : Bytes) : Writer := { w with held := w.held.append bs }

def refuse (w : Writer) : WriteError × Writer :=
  if w.room 1 = 0 then
    match w.mode with
    | .stalling => (.stalled, w)
    | .recovering => (.full, { w with capacity := none })
    | _ => (.full, w)
  else (.stalled, w)

/-- What comes of offering bytes until all are taken: the writer takes as many as it can, and fails
if any are left. -/
def offer (w : Writer) (bs : Bytes) : Option WriteError × Writer :=
  let most := limited w.spare bs.length
  if most = bs.length then (none, w.take bs)
  else (some (w.take (bs.take most)).refuse.1, (w.take (bs.take most)).refuse.2)

@[simp] theorem take_nil (w : Writer) : w.take [] = w := by
  simp [take, Buffer.append]

theorem take_take (w : Writer) (as bs : Bytes) : (w.take as).take bs = w.take (as ++ bs) := by
  simp only [take, Buffer.faithful.feed_append]

theorem spare_take (w : Writer) (bs : Bytes) :
    (w.take bs).spare = w.spare.map (· - bs.length) := by
  unfold spare take
  split
  · simp
  · cases w.capacity with
    | none => rfl
    | some most => simp [Buffer.size_append, Nat.sub_sub]

theorem room_eq_zero_iff {w : Writer} {n : Nat} (hn : 0 < n) : w.room n = 0 ↔ w.room 1 = 0 := by
  unfold room
  cases w.capacity with
  | none => simp; omega
  | some most => simp; omega

theorem write_of_full {w : Writer} {bs : Bytes} (hbs : bs ≠ []) (h : w.room 1 = 0) :
    w.write bs =
      match w.mode with
      | .stalling => (.ok 0, w)
      | _ => (.error w.refuse.1, w.refuse.2) := by
  have hroom : w.room bs.length = 0 := (room_eq_zero_iff (List.length_pos_iff.mpr hbs)).mpr h
  unfold write refuse
  rw [if_neg (by simpa using hbs), hroom, if_pos h]
  cases w.mode <;> rfl

theorem write_of_room {w : Writer} {bs : Bytes} (hbs : bs ≠ []) (h : w.room 1 ≠ 0) :
    w.write bs =
      let n := limited w.chunk (w.room bs.length)
      (.ok n, w.take (bs.take n)) := by
  have hroom : w.room bs.length ≠ 0 :=
    fun hzero => h ((room_eq_zero_iff (List.length_pos_iff.mpr hbs)).mp hzero)
  unfold write
  rw [if_neg (by simpa using hbs)]
  split <;> first | rfl | contradiction

theorem limited_spare_of_write {w : Writer} {n k : Nat}
    (hk : limited w.chunk (w.room n) = k + 1) :
    k + 1 ≤ n ∧
      limited w.spare n = (k + 1) + limited (w.spare.map (· - (k + 1))) (n - (k + 1)) := by
  have hchunk : w.chunk ≠ some 0 := by
    intro hzero
    rw [hzero, limited_some] at hk
    omega
  have hle : k + 1 ≤ w.room n := hk ▸ limited_le w.chunk (w.room n)
  rw [spare, if_neg hchunk]
  unfold room at hle
  cases hcapacity : w.capacity with
  | none =>
      rw [hcapacity, Option.map_none, limited_none] at hle
      simp only [Option.map_none, limited_none]
      omega
  | some most =>
      rw [hcapacity, Option.map_some, limited_some] at hle
      simp only [Option.map_some, limited_some]
      omega

theorem offer_of_spent {w : Writer} {bs : Bytes} (hbs : bs ≠ [])
    (h : limited w.spare bs.length = 0) : w.offer bs = (some w.refuse.1, w.refuse.2) := by
  have hne : ¬ 0 = bs.length := fun hlength => hbs (List.length_eq_zero_iff.mp hlength.symm)
  simp only [offer, h, if_neg hne, List.take_zero, take_nil]

/-- The writer takes bytes from the front, so it may take them in pieces. -/
theorem offer_take {w : Writer} {bs : Bytes} {k : Nat} (hk : k ≤ bs.length)
    (h : limited w.spare bs.length = k + limited (w.spare.map (· - k)) (bs.length - k)) :
    (w.take (bs.take k)).offer (bs.drop k) = w.offer bs := by
  have hlength : (bs.take k).length = k := List.length_take_of_le hk
  have hfront : ∀ n, bs.take k ++ (bs.drop k).take n = bs.take (k + n) := by
    intro n
    rw [List.take_add]
  simp only [offer, spare_take, hlength, List.length_drop, take_take, hfront, ← h,
    List.take_append_drop]
  congr 1
  rw [eq_iff_iff]
  omega

theorem offer_of_write {w : Writer} {bs : Bytes} (hbs : bs ≠ []) :
    w.offer bs =
      match w.write bs with
      | (.error e, w') => (some e, w')
      | (.ok 0, w') => (some .stalled, w')
      | (.ok (k + 1), w') => w'.offer (bs.drop (k + 1)) := by
  have hpos : 0 < bs.length := List.length_pos_iff.mpr hbs
  by_cases hfull : w.room 1 = 0
  · have hroom : w.room bs.length = 0 := (room_eq_zero_iff hpos).mpr hfull
    have hspent : limited w.spare bs.length = 0 := by
      unfold spare
      split
      · exact Nat.zero_min _
      · exact hroom
    rw [offer_of_spent hbs hspent, write_of_full hbs hfull, refuse, if_pos hfull]
    cases w.mode <;> rfl
  · rw [write_of_room hbs hfull]
    cases hk : limited w.chunk (w.room bs.length) with
    | zero =>
        have hroom : w.room bs.length ≠ 0 := fun hzero => hfull ((room_eq_zero_iff hpos).mp hzero)
        have hchunk : w.chunk = some 0 := by
          cases hchunk : w.chunk with
          | none => rw [hchunk, limited_none] at hk; contradiction
          | some most => rw [hchunk, limited_some] at hk; simp; omega
        have hspent : limited w.spare bs.length = 0 := by
          rw [spare, if_pos hchunk]
          exact Nat.zero_min _
        rw [offer_of_spent hbs hspent, refuse, if_neg hfull]
        simp
    | succ k =>
        obtain ⟨hle, hsplit⟩ := limited_spare_of_write hk
        exact (offer_take hle hsplit).symm

theorem writeAll_eq (w : Writer) (bs : Bytes) : w.writeAll bs = w.offer bs := by
  fun_induction writeAll w bs with
  | case1 w =>
      have hmost : limited w.spare 0 = 0 := Nat.le_zero.mp (limited_le w.spare 0)
      simp [offer, hmost]
  | case2 w b bs e w' h | case3 w b bs w' h =>
      rw [offer_of_write (List.cons_ne_nil b bs), h]
  | case4 w b bs n w' h ih =>
      rw [offer_of_write (List.cons_ne_nil b bs), h]
      exact ih

theorem offer_append (w : Writer) (as bs : Bytes) :
    w.offer (as ++ bs) =
      match w.offer as with
      | (none, w') => w'.offer bs
      | (some e, w') => (some e, w') := by
  by_cases hall : limited w.spare as.length = as.length
  · have hsplit : limited w.spare (as ++ bs).length =
        as.length + limited (w.spare.map (· - as.length)) ((as ++ bs).length - as.length) := by
      rw [List.length_append]
      cases hspare : w.spare with
      | none => simp only [Option.map_none, limited_none]; omega
      | some most =>
          rw [hspare, limited_some] at hall
          simp only [Option.map_some, limited_some]
          omega
    have hle : as.length ≤ (as ++ bs).length := by simp
    have hfirst : w.offer as = (none, w.take as) := by simp only [offer, if_pos hall]
    have hpieces := offer_take hle hsplit
    rw [List.take_left, List.drop_left] at hpieces
    rw [hfirst, ← hpieces]
  · have hle := limited_le w.spare as.length
    have hsame : limited w.spare (as ++ bs).length = limited w.spare as.length := by
      rw [List.length_append]
      cases hspare : w.spare with
      | none => rw [hspare] at hall; exact (hall rfl).elim
      | some most =>
          rw [hspare, limited_some] at hall
          simp only [limited_some]
          omega
    have hne : ¬ limited w.spare as.length = (as ++ bs).length := by
      rw [List.length_append]
      omega
    simp only [offer, hsame, if_neg hall, if_neg hne, List.take_append_of_le_length hle]

/-! ### Writers that take some bytes at a time -/

def overflow (w : Writer) : WriteError := if w.mode = .stalling then .stalled else .full

theorem limited_spare {w : Writer} (hchunk : w.chunk ≠ some 0) (n : Nat) :
    limited w.spare n = w.room n := by
  rw [spare, if_neg hchunk, room]

@[simp] theorem held_refuse (w : Writer) : w.refuse.2.held = w.held := by
  unfold refuse
  split
  · split <;> rfl
  · rfl

@[simp] theorem mode_refuse (w : Writer) : w.refuse.2.mode = w.mode := by
  unfold refuse
  split
  · split <;> rfl
  · rfl

theorem refuse_of_full {w : Writer} (h : w.room 1 = 0) : w.refuse.1 = w.overflow := by
  rw [refuse, if_pos h, overflow]
  cases w.mode <;> rfl

theorem room_take_of_lt {w : Writer} {bs : Bytes} (h : w.room bs.length < bs.length) :
    (w.take (bs.take (w.room bs.length))).room 1 = 0 := by
  unfold room at h ⊢
  unfold take
  cases hcapacity : w.capacity with
  | none =>
      rw [hcapacity, Option.map_none, limited_none] at h
      exact (Nat.lt_irrefl _ h).elim
  | some most =>
      rw [hcapacity, Option.map_some, limited_some] at h
      simp only [Option.map_some, limited_some, Buffer.size_append, List.length_take]
      omega

theorem held_offer {w : Writer} (hchunk : w.chunk ≠ some 0) (bs : Bytes) :
    (w.offer bs).2.held.toList = w.held.toList ++ bs.take (w.room bs.length) := by
  simp only [offer, limited_spare hchunk]
  split
  · next hall => simp [hall, take, Buffer.append, Buffer.toList]
  · simp [take, Buffer.append, Buffer.toList]

theorem fault_offer {w : Writer} (hchunk : w.chunk ≠ some 0) (bs : Bytes) :
    (w.offer bs).1 = if w.room bs.length < bs.length then some w.overflow else none := by
  have hle : w.room bs.length ≤ bs.length := limited_le _ _
  simp only [offer, limited_spare hchunk]
  split
  · next hall => rw [if_neg (by omega)]
  · next hsome =>
    have hlt : w.room bs.length < bs.length := by omega
    rw [if_pos hlt, refuse_of_full (room_take_of_lt hlt)]
    rfl

theorem flush_offer (w : Writer) (bs : Bytes) : (w.offer bs).2.flush = w.flush := by
  have hmode : (w.offer bs).2.mode = w.mode := by
    simp only [offer]
    split
    · rfl
    · exact mode_refuse _
  rw [flush, flush, hmode]

end Writer

namespace Latch

/-- What is pushed into the sink over a writer is written, unless a write has failed before. -/
theorem faithful : Sink.Faithful Latch fun bs l => l.write bs where
  feed_nil l := by
    obtain ⟨w, _ | e⟩ := l
    · simp [write, Writer.writeAll]
    · rfl
  feed_append as bs l := by
    obtain ⟨w, _ | e⟩ := l
    · simp only [write, Writer.writeAll_eq, Writer.offer_append]
      rcases w.offer as with ⟨_ | e, w'⟩ <;> rfl
    · rfl
  pushByte b l := rfl
  pushBlock bs l := rfl
  pushRun bs l := rfl
  anticipate n l := rfl

end Latch

end SchemaWire
