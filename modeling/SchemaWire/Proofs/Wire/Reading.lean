import SchemaWire.Proofs.Stateful
import SchemaWire.Proofs.Wire.ZigZag
import SchemaWire.Wire.Reader

/-!
What it takes for a reader to succeed. Success is stated as a relation between the cursor before
and the cursor after: `c.Passed front c'` says that exactly the bytes `front` lie between them. For
every primitive reader there is one equivalence, which serves both directions: that the bytes
written are read back, and that what was read was written there.
-/

namespace SchemaWire

/-- The bytes `front` lie between two cursors over one input. -/
def Cursor.Passed (c : Cursor) (front : Bytes) (c' : Cursor) : Prop :=
  c.rest = front ++ c'.rest ∧ c'.offset = c.offset + front.length

namespace Cursor

@[simp] theorem passed_nil {c c' : Cursor} : c.Passed [] c' ↔ c' = c := by
  constructor
  · rintro ⟨hrest, hoffset⟩
    cases c; cases c'
    simp_all
  · rintro rfl
    exact ⟨rfl, rfl⟩

theorem passed_append {c c' : Cursor} {front back : Bytes} :
    c.Passed (front ++ back) c' ↔ ∃ mid, c.Passed front mid ∧ mid.Passed back c' := by
  constructor
  · rintro ⟨hrest, hoffset⟩
    rw [List.append_assoc] at hrest
    rw [List.length_append] at hoffset
    exact ⟨⟨c.offset + front.length, back ++ c'.rest⟩, ⟨hrest, rfl⟩, rfl, by dsimp only; omega⟩
  · rintro ⟨mid, ⟨hrest, hoffset⟩, hrest', hoffset'⟩
    refine ⟨by rw [hrest, hrest', List.append_assoc], ?_⟩
    rw [hoffset', hoffset, List.length_append, Nat.add_assoc]

theorem Passed.trans {c mid c' : Cursor} {front back : Bytes} (hfront : c.Passed front mid)
    (hback : mid.Passed back c') : c.Passed (front ++ back) c' :=
  passed_append.mpr ⟨mid, hfront, hback⟩

theorem passed_start_append (front rest : Bytes) :
    (start (front ++ rest)).Passed front ⟨front.length, rest⟩ :=
  ⟨rfl, (Nat.zero_add _).symm⟩

theorem passed_start (input : Bytes) : (start input).Passed input ⟨input.length, []⟩ :=
  ⟨(List.append_nil input).symm, (Nat.zero_add _).symm⟩

end Cursor

namespace Reader

open Stateful

variable {α : Type}

/-! ### Primitive readers -/

theorem byte_eq_ok {b : UInt8} {c c' : Cursor} : byte c = .ok b c' ↔ c.Passed [b] c' := by
  rcases c with ⟨offset, _ | ⟨x, rest⟩⟩
  · simp [byte, Cursor.Passed]
  · rcases c' with ⟨offset', rest'⟩
    simp only [byte, Cursor.Passed, EStateM.Result.ok.injEq, Cursor.mk.injEq, List.cons_append,
      List.nil_append, List.cons.injEq, List.length_singleton]
    grind

theorem take_eq_ok {n : Nat} {bs : Bytes} {c c' : Cursor} :
    take n c = .ok bs c' ↔ bs.length = n ∧ c.Passed bs c' := by
  rcases c with ⟨offset, rest⟩
  simp only [take, Cursor.advance, Cursor.Passed]
  constructor
  · intro h
    split at h
    · cases h
    · next hlen =>
      cases h
      have hn : (rest.take n).length = n := by
        rw [List.length_take] at hlen ⊢
        omega
      exact ⟨hn, (List.take_append_drop n rest).symm, by rw [hn]⟩
  · rintro ⟨rfl, rfl, hoffset⟩
    cases c'
    simp_all

theorem word_eq_ok {n : Nat} {x : BitVec (8 * n)} {c c' : Cursor} :
    word n c = .ok x c' ↔ c.Passed (Bytes.littleEndian n x.toNat) c' := by
  simp only [word, bind_pure_eq_ok, take_eq_ok]
  have hsize : 2 ^ (8 * n) = 256 ^ n := by rw [Nat.pow_mul]
  constructor
  · rintro ⟨bs, ⟨hlen, hpassed⟩, rfl⟩
    have hlt : Bytes.ofLittleEndian bs < 2 ^ (8 * n) := by
      rw [hsize, ← hlen]
      exact Bytes.ofLittleEndian_lt bs
    rw [BitVec.toNat_ofNat, Nat.mod_eq_of_lt hlt, ← hlen, Bytes.littleEndian_ofLittleEndian]
    exact hpassed
  · intro hpassed
    refine ⟨_, ⟨Bytes.length_littleEndian n _, hpassed⟩, ?_⟩
    rw [Bytes.ofLittleEndian_littleEndian, ← hsize, Nat.mod_eq_of_lt x.isLt, BitVec.ofNat_toNat,
      BitVec.setWidth_eq]

theorem flag_eq_ok {b : Bool} {c c' : Cursor} :
    flag c = .ok b c' ↔ ∃ x : UInt8, c.Passed [x] c' ∧ b = decide (x ≠ 0) := by
  simp only [flag, bind_pure_eq_ok, byte_eq_ok]

theorem length_eq_ok {n : Nat} {c c' : Cursor} :
    length c = .ok n c' ↔ n < 2 ^ 63 ∧ c.Passed (Bytes.ofLength n) c' := by
  simp only [length, bind_eq_ok, word_eq_ok]
  constructor
  · rintro ⟨u, mid, hpassed, h⟩
    split at h
    · exact (throw_ne_ok h).elim
    · next hneg =>
      obtain ⟨rfl, rfl⟩ := pure_eq_ok.mp h
      obtain ⟨hlt, hword⟩ := Bytes.ofNat_toNat_toInt (Int.not_lt.mp hneg)
      refine ⟨hlt, ?_⟩
      rw [Bytes.ofLength, hword, ZigZag.fold_unfold]
      exact hpassed
  · rintro ⟨hlt, hpassed⟩
    refine ⟨ZigZag.fold (BitVec.ofNat 64 n), c', hpassed, ?_⟩
    rw [ZigZag.unfold_fold, Bytes.toInt_ofNat_of_lt hlt, if_neg (by omega), Int.toNat_natCast]
    rfl

theorem text_eq_ok {n : Nat} {s : String} {c c' : Cursor} :
    text n c = .ok s c' ↔ (Text.utf8 s).length = n ∧ c.Passed (Text.utf8 s) c' := by
  simp only [text, bind_eq_ok, take_eq_ok]
  constructor
  · rintro ⟨bs, mid, ⟨hlen, hpassed⟩, h⟩
    cases hdecode : Text.ofUtf8 bs with
    | ok t =>
        rw [hdecode] at h
        obtain ⟨rfl, rfl⟩ := pure_eq_ok.mp h
        obtain rfl := Text.utf8_of_ofUtf8 hdecode
        exact ⟨hlen, hpassed⟩
    | error fault =>
        rw [hdecode] at h
        exact (throw_ne_ok h).elim
  · rintro ⟨hlen, hpassed⟩
    refine ⟨Text.utf8 s, c', ⟨hlen, hpassed⟩, ?_⟩
    rw [Text.ofUtf8_utf8]
    rfl

theorem require_eq_ok {passes : Constraint → Bool} {constraints : List Constraint}
    {u : Unit} {c c' : Cursor} :
    require passes constraints c = .ok u c' ↔ constraints.all passes = true ∧ c' = c := by
  unfold require
  cases h : constraints.find? fun k => !passes k with
  | none =>
      rw [List.find?_eq_none] at h
      have hall : constraints.all passes = true := by simpa [List.all_eq_true] using h
      simp [pure_eq_ok, hall]
  | some k =>
      have hfails : ¬constraints.all passes = true := by
        rw [List.all_eq_true]
        intro hall
        have hk := List.find?_some h
        simp [hall k (List.mem_of_find?_eq_some h)] at hk
      simp [throw_ne_ok, hfails]

theorem gatedLength_eq_ok {gate : List Constraint} {n : Nat} {c c' : Cursor} :
    gatedLength gate c = .ok n c' ↔
      gate.all (·.rule.admitsLength n) = true ∧ n < 2 ^ 63 ∧ c.Passed (Bytes.ofLength n) c' := by
  simp only [gatedLength, bind_eq_ok, length_eq_ok, require_eq_ok, pure_eq_ok]
  constructor
  · rintro ⟨m, _, ⟨hlt, hpassed⟩, _, _, ⟨hall, rfl⟩, rfl, rfl⟩
    exact ⟨hall, hlt, hpassed⟩
  · rintro ⟨hall, hlt, hpassed⟩
    exact ⟨n, c', ⟨hlt, hpassed⟩, (), c', ⟨hall, rfl⟩, rfl, rfl⟩

/-! ### Repetition -/

inductive Chain (item : Reader α) : Cursor → List α → Cursor → Prop where
  | nil (c : Cursor) : Chain item c [] c
  | cons {c mid c' : Cursor} {a : α} {as : List α} :
      item c = .ok a mid → Chain item mid as c' → Chain item c (a :: as) c'

theorem times_eq_ok {item : Reader α} {n : Nat} {as : List α} {c c' : Cursor} :
    times item n c = .ok as c' ↔ as.length = n ∧ Chain item c as c' := by
  induction n generalizing as c c' with
  | zero =>
      rw [times, pure_eq_ok]
      constructor
      · rintro ⟨rfl, rfl⟩
        exact ⟨rfl, .nil _⟩
      · rintro ⟨hlen, hchain⟩
        cases hchain with
        | nil => exact ⟨rfl, rfl⟩
        | cons _ _ => simp at hlen
  | succ n ih =>
      simp only [times, bind_eq_ok, pure_eq_ok, ih]
      constructor
      · rintro ⟨a, mid, ha, as', _, ⟨rfl, hchain⟩, rfl, rfl⟩
        exact ⟨rfl, .cons ha hchain⟩
      · rintro ⟨hlen, hchain⟩
        cases hchain with
        | nil => simp at hlen
        | cons ha hchain =>
            exact ⟨_, _, ha, _, _, ⟨by simpa using hlen, hchain⟩, rfl, rfl⟩

/-! ### Whole inputs -/

variable {r : Reader α} {input : Bytes} {a : α} {e : DecodeError} {c c' : Cursor}

theorem run_eq_ok : r.run input = .ok a ↔ ∃ c, r (.start input) = .ok a c := by
  rw [run]
  cases r (.start input) with
  | ok x c => simp
  | error e c => simp

theorem run_eq_error : r.run input = .error e ↔ ∃ c, r (.start input) = .error e c := by
  rw [run]
  cases r (.start input) with
  | ok x c => simp
  | error e c => simp

theorem atEnd_eq_ok {u : Unit} : atEnd c = .ok u c' ↔ c.rest = [] ∧ c' = c := by
  rcases c with ⟨offset, _ | ⟨b, rest⟩⟩
  · simp [atEnd, Cursor.remaining, eq_comm]
  · simp [atEnd, Cursor.remaining]

theorem atEnd_eq_error :
    atEnd c = .error e c' ↔ c.rest ≠ [] ∧ e = .trailing c.remaining ∧ c' = c := by
  rcases c with ⟨offset, _ | ⟨b, rest⟩⟩
  · simp [atEnd, Cursor.remaining]
  · simp [atEnd, Cursor.remaining, eq_comm]

theorem run_atEnd_eq_ok :
    Reader.run (do let a ← r; atEnd; return a) input = .ok a ↔
      ∃ c, r (.start input) = .ok a c ∧ c.rest = [] := by
  simp only [run_eq_ok, bind_eq_ok, atEnd_eq_ok, pure_eq_ok]
  constructor
  · rintro ⟨_, x, mid, hr, _, _, ⟨hend, rfl⟩, rfl, rfl⟩
    exact ⟨_, hr, hend⟩
  · rintro ⟨c, hr, hend⟩
    exact ⟨c, a, c, hr, (), c, ⟨hend, rfl⟩, rfl, rfl⟩

/-- Bytes that are left are reported only where the reader itself does not fail. -/
theorem run_atEnd_eq_error :
    Reader.run (do let a ← r; atEnd; return a) input = .error e ↔
      (∃ c, r (.start input) = .error e c) ∨
        ∃ a c, r (.start input) = .ok a c ∧ c.rest ≠ [] ∧ e = .trailing c.remaining := by
  simp only [run_eq_error, bind_eq_error, atEnd_eq_error, pure_ne_error]
  constructor
  · rintro ⟨c, hr | ⟨a, mid, hr, ⟨hrest, he, -⟩ | ⟨_, _, -, ⟨⟩⟩⟩⟩
    · exact .inl ⟨c, hr⟩
    · exact .inr ⟨a, mid, hr, hrest, he⟩
  · rintro (⟨c, hr⟩ | ⟨a, c, hr, hrest, he⟩)
    · exact ⟨c, .inl hr⟩
    · exact ⟨c, .inr ⟨a, c, hr, .inl ⟨hrest, he, rfl⟩⟩⟩

end Reader

end SchemaWire
