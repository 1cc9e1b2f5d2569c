import SchemaWire.Proofs.Codec.Emission
import SchemaWire.Proofs.Static.Agreement
import SchemaWire.Proofs.Wire.Sequential

/-!
Byte strings beside sequences of bytes. A byte string is written and read as a whole, a sequence of
bytes one by one, and the wire does not tell them apart: the encodings are equal, the same inputs
are accepted up to the same place, and bounds on the length are violated alike. Only on input that
ends too early do the failures differ, since the one misses the whole and the other the first byte
that is not there.
-/

namespace SchemaWire

open Stateful

/-! ### Outcomes that differ in what they miss -/

/-- Related results at the same cursor, the same failure at the same cursor, or an input that ends
too early: the first reader stands before what it misses, the second one at the end of the input. -/
def AlikeOutcome {α β : Type} (R : α → β → Prop) :
    EStateM.Result DecodeError Cursor α → EStateM.Result DecodeError Cursor β → Prop
  | .ok a c, .ok b c' => R a b ∧ c = c'
  | .error e c, .error e' c' =>
    (e = e' ∧ c = c') ∨ ∃ n, c.remaining < n ∧ e = .unexpectedEnd c.offset n c.remaining ∧
      e' = .unexpectedEnd (c.offset + c.remaining) 1 0 ∧ c' = c.advance c.remaining
  | _, _ => False

def Alike {α β : Type} (R : α → β → Prop) (r : Reader α) (s : Reader β) : Prop :=
  ∀ c, AlikeOutcome R (r c) (s c)

namespace Alike

variable {α α' β β' γ : Type} {R : α → β → Prop} {S : α' → β' → Prop}

theorem pure {a : α} {b : β} (h : R a b) : Alike R (pure a) (pure b) := fun _ => ⟨h, rfl⟩

theorem bind {r : Reader α} {s : Reader β} {f : α → Reader α'} {g : β → Reader β'}
    (h : Alike R r s) (hfg : ∀ {a b}, R a b → Alike S (f a) (g b)) :
    Alike S (r >>= f) (s >>= g) := by
  intro c
  have hc := h c
  cases hr : r c with
  | ok a mid =>
      cases hs : s c with
      | ok b mid' =>
          rw [hr, hs] at hc
          obtain ⟨hab, rfl⟩ := hc
          rw [bind_of_ok hr, bind_of_ok hs]
          exact hfg hab mid
      | error e mid' =>
          rw [hr, hs] at hc
          exact hc.elim
  | error e mid =>
      cases hs : s c with
      | ok b mid' =>
          rw [hr, hs] at hc
          exact hc.elim
      | error e' mid' =>
          rw [hr, hs] at hc
          rw [bind_of_error hr, bind_of_error hs]
          exact hc

theorem refl (r : Reader γ) : Alike Eq r r := by
  intro c
  cases r c with
  | ok x mid => exact ⟨rfl, rfl⟩
  | error e mid => exact .inl ⟨rfl, rfl⟩

theorem bind_same {r : Reader γ} {f : γ → Reader α} {g : γ → Reader β}
    (h : ∀ x, Alike R (f x) (g x)) : Alike R (r >>= f) (r >>= g) :=
  (refl r).bind fun {x _} heq => heq ▸ h x

theorem map {r : Reader α} {s : Reader β} {f : α → α'} {g : β → β'} (h : Alike R r s)
    (hfg : ∀ {a b}, R a b → S (f a) (g b)) : Alike S (do return f (← r)) (do return g (← s)) :=
  h.bind fun hab => pure (hfg hab)

end Alike

/-! ### Bytes one by one -/

namespace Reader

variable {α : Type}

def byteAs (form : UInt8 → α) : Reader α := do return form (← byte)

theorem byteAs_cons (form : UInt8 → α) (offset : Nat) (b : UInt8) (rest : Bytes) :
    byteAs form ⟨offset, b :: rest⟩ = .ok (form b) ⟨offset + 1, rest⟩ := rfl

theorem word_one : word 1 = byteAs UInt8.toBitVec := by
  funext c
  obtain ⟨offset, _ | ⟨b, rest⟩⟩ := c
  · rfl
  · have hword : BitVec.ofNat (8 * 1) (Bytes.ofLittleEndian [b]) = b.toBitVec := by
      simp [Bytes.ofLittleEndian]
    exact congrArg (fun w => EStateM.Result.ok w (⟨offset + 1, rest⟩ : Cursor)) hword

theorem times_byteAs_of_le (form : UInt8 → α) {n : Nat} {c : Cursor} (h : n ≤ c.remaining) :
    times (byteAs form) n c = .ok ((c.rest.take n).map form) (c.advance n) := by
  induction n generalizing c with
  | zero => rfl
  | succ n ih =>
      obtain ⟨offset, _ | ⟨b, rest⟩⟩ := c
      · exact absurd h (Nat.not_succ_le_zero n)
      · have hrest := ih (c := ⟨offset + 1, rest⟩) (Nat.le_of_succ_le_succ h)
        have hadvance : (⟨offset + 1, rest⟩ : Cursor).advance n =
            (⟨offset, b :: rest⟩ : Cursor).advance (n + 1) := by
          simp [Cursor.advance, Nat.add_comm, Nat.add_left_comm]
        rw [times, bind_of_ok (byteAs_cons form offset b rest), bind_of_ok hrest, hadvance]
        rfl

theorem times_byteAs_of_lt (form : UInt8 → α) {n : Nat} {c : Cursor} (h : c.remaining < n) :
    times (byteAs form) n c =
      .error (.unexpectedEnd (c.offset + c.remaining) 1 0) (c.advance c.remaining) := by
  induction n generalizing c with
  | zero => exact absurd h (Nat.not_lt_zero _)
  | succ n ih =>
      obtain ⟨offset, _ | ⟨b, rest⟩⟩ := c
      · rfl
      · have hrest := ih (c := ⟨offset + 1, rest⟩) (Nat.lt_of_succ_lt_succ h)
        rw [times, bind_of_ok (byteAs_cons form offset b rest), bind_of_error hrest]
        simp [Cursor.advance, Cursor.remaining, Nat.add_comm, Nat.add_left_comm]

theorem alike_take (form : UInt8 → α) (n : Nat) :
    Alike (fun bs as => as = bs.map form) (take n) (times (byteAs form) n) := by
  intro c
  rcases Nat.lt_or_ge c.remaining n with h | h
  · rw [take_of_lt h, times_byteAs_of_lt form h]
    exact .inr ⟨n, h, rfl, rfl, rfl⟩
  · rw [take_of_le h, times_byteAs_of_le form h]
    exact ⟨rfl, rfl⟩

end Reader

/-! ### Schemas -/

namespace Schema

open Reader

def octet (b : UInt8) : Value := .num ⟨.uint8, b.toBitVec⟩

def SameOctets (v w : Value) : Prop := ∃ bs : Bytes, v = .bytes bs ∧ w = .sequence (bs.map octet)

def SameOptional (v w : Value) : Prop :=
  (v = .absent ∧ w = .absent) ∨ ∃ v' w', v = .present v' ∧ w = .present w' ∧ SameOctets v' w'

/-- The sequence of bytes that is no byte string. -/
def octetSequence (kindName name : Option String) : Schema :=
  .sequence (.scalar (.num .uint8) kindName) name

variable {kindName name name' : Option String}

/-! #### Writing -/

theorem emit_octets (bs : Bytes) :
    Emission.each (emit (.scalar (.num .uint8) kindName)) (bs.map octet) = .done bs := by
  induction bs with
  | nil => rfl
  | cons b bs ih =>
      have hbyte : emit (.scalar (.num .uint8) kindName) (octet b) = .done [b] :=
        emit_num_eq_done.mpr ⟨b.toBitVec, rfl, congrArg (fun b => [b]) UInt8.ofNat_toNat.symm⟩
      rw [List.map_cons, Emission.each, ih, hbyte]
      rfl

theorem encode_octets (bs : Bytes) :
    (bytes name).encode (.bytes bs) = .ok (Bytes.ofLength bs.length ++ bs) ∧
      (octetSequence kindName name').encode (.sequence (bs.map octet)) =
        .ok (Bytes.ofLength bs.length ++ bs) := by
  refine ⟨encode_eq_ok.mpr (emit_bytes_eq_done.mpr ⟨bs, rfl, rfl⟩), encode_eq_ok.mpr ?_⟩
  exact emit_sequence_eq_done.mpr ⟨_, bs, rfl, emit_octets bs, by rw [List.length_map]⟩

/-! #### Reading -/

theorem read_octet : read [] (.scalar (.num .uint8) kindName) = byteAs octet := by
  have hword : read [] (.scalar (.num .uint8) kindName) =
      (do return .num ⟨.uint8, ← word 1⟩ : Reader Value) := by
    rw [read]
    rfl
  rw [hword, word_one, byteAs, byteAs]
  simp only [bind_assoc, pure_bind, octet]

theorem alike_read (gate : List Constraint) :
    Alike SameOctets (read gate (.bytes name)) (read gate (octetSequence kindName name')) := by
  have hsequence : read gate (octetSequence kindName name') = (do
      return .sequence (← times (byteAs octet) (← gatedLength gate))) := by
    rw [octetSequence, read, read_octet]
  rw [hsequence, read]
  exact .bind_same fun n => (alike_take octet n).map fun has => ⟨_, rfl, congrArg _ has⟩

theorem alike_read_optional (gate : List Constraint) :
    Alike SameOptional (read gate (.optional (.bytes name)))
      (read gate (.optional (octetSequence kindName name'))) := by
  have hprefixed : (octetSequence kindName name').isPrefixed = true := rfl
  rw [read, read, hprefixed]
  refine .bind_same fun present => ?_
  cases present with
  | false => exact .pure (.inl ⟨rfl, rfl⟩)
  | true => exact (alike_read gate).map fun hsame => .inr ⟨_, _, rfl, rfl, hsame⟩

/-- No rule tells a byte string from the sequence of its bytes. -/
theorem acceptsValue_octets (rule : Rule) (bs : Bytes) :
    rule.acceptsValue (.sequence (bs.map octet)) = rule.acceptsValue (.bytes bs) := by
  cases rule <;> simp [Rule.acceptsValue, Literal.order?, Value.length?, Value.text?, Value.number?]

theorem accepts_of_sameOctets {v w : Value} (h : SameOctets v w) (k : Constraint) :
    k.accepts v = k.accepts w := by
  obtain ⟨bs, rfl, rfl⟩ := h
  exact (acceptsValue_octets k.rule bs).symm

theorem accepts_of_sameOptional {v w : Value} (h : SameOptional v w) (k : Constraint) :
    k.accepts v = k.accepts w := by
  obtain ⟨rfl, rfl⟩ | ⟨_, _, rfl, rfl, bs, rfl, rfl⟩ := h
  · rfl
  · exact (acceptsValue_octets k.rule bs).symm

theorem alike_readField {R : Value → Value → Prop} {type type' : Schema}
    {constraints : List Constraint}
    (hread : ∀ gate, Alike R (type.read gate) (type'.read gate))
    (haccepts : ∀ {v w}, R v w → ∀ k : Constraint, k.accepts v = k.accepts w) (field : String) :
    Alike R (readField ⟨field, type, false, constraints⟩)
      (readField ⟨field, type', false, constraints⟩) := by
  rw [readField, readField, if_neg Bool.false_ne_true, if_neg Bool.false_ne_true]
  refine (hread _).bind fun {v w} hvw => ?_
  have hsame : (fun k : Constraint => k.accepts v) = fun k => k.accepts w :=
    funext (haccepts hvw)
  rw [hsame]
  exact .bind_same fun _ => .pure hvw

end Schema

/-! ### Static types -/

namespace StaticType

open Reader

theorem encode_octets (bs : Bytes) :
    encode (.list (.num .uint8)) (bs.map UInt8.toBitVec) = encode .bytes bs := by
  have hvalue : (StaticType.list (.num .uint8)).toValue (bs.map UInt8.toBitVec) =
      .sequence (bs.map Schema.octet) := congrArg Value.sequence List.map_map
  have hlist := encode_toValue (.list (.num .uint8)) (bs.map UInt8.toBitVec)
  rw [hvalue] at hlist
  have hbytes : (Schema.bytes none).encode (.bytes bs) = .ok (encode .bytes bs) :=
    encode_toValue .bytes bs
  have hsame : (Schema.bytes none).encode (.bytes bs) = .ok (Bytes.ofLength bs.length ++ bs) ∧
      (Schema.octetSequence none none).encode (.sequence (bs.map Schema.octet)) =
        .ok (Bytes.ofLength bs.length ++ bs) := Schema.encode_octets bs
  exact Except.ok.inj (hlist.symm.trans (hsame.2.trans (hsame.1.symm.trans hbytes)))

def SameOctets (bs : Bytes) (ws : (list (.num .uint8)).Carrier) : Prop :=
  ws = bs.map UInt8.toBitVec

theorem alike_read (gate : List Constraint) :
    Alike SameOctets (read gate .bytes) (read gate (.list (.num .uint8))) := by
  show Alike SameOctets (do take (← gatedLength gate)) (do times (word 1) (← gatedLength gate))
  rw [word_one]
  exact .bind_same fun n => alike_take UInt8.toBitVec n

theorem alike_readOption (gate : List Constraint) :
    Alike (Option.Rel SameOctets) (readOption gate .bytes)
      (readOption gate (.list (.num .uint8))) := by
  refine .bind_same fun present => ?_
  cases present with
  | false => exact .pure .none
  | true => exact (alike_read gate).map .some

end StaticType

namespace Schema

/-- A byte string travels as the sequence of its bytes does. The two have one encoding, and by
either schema the same inputs decode to the same bytes up to the same place; on what does not
decode they report the same failure, except that they notice a missing byte at different places.
The same holds of the two as types of a field, optional or not, with any constraints, and of the
two static types. -/
theorem bytes_alike_sequence (kindName name name' : Option String) :
    (∀ bs, ∃ output, (bytes name).encode (.bytes bs) = .ok output ∧
      (octetSequence kindName name').encode (.sequence (bs.map octet)) = .ok output) ∧
    Alike SameOctets (bytes name).reader (octetSequence kindName name').reader ∧
    (∀ (field : String) (constraints : List Constraint),
      Alike SameOctets (readField ⟨field, .bytes name, false, constraints⟩)
        (readField ⟨field, octetSequence kindName name', false, constraints⟩) ∧
      Alike SameOptional (readField ⟨field, .optional (.bytes name), false, constraints⟩)
        (readField ⟨field, .optional (octetSequence kindName name'), false, constraints⟩)) ∧
    (∀ bs, StaticType.encode (.list (.num .uint8)) (bs.map UInt8.toBitVec) =
      StaticType.encode .bytes bs) ∧
    ∀ gate : List Constraint,
      Alike StaticType.SameOctets (StaticType.read gate .bytes)
        (StaticType.read gate (.list (.num .uint8))) ∧
      Alike (Option.Rel StaticType.SameOctets) (StaticType.readOption gate .bytes)
        (StaticType.readOption gate (.list (.num .uint8))) := by
  refine ⟨fun bs => ⟨_, encode_octets bs⟩, alike_read [], fun field constraints => ?_,
    StaticType.encode_octets,
    fun gate => ⟨StaticType.alike_read gate, StaticType.alike_readOption gate⟩⟩
  exact ⟨alike_readField alike_read accepts_of_sameOctets field,
    alike_readField alike_read_optional accepts_of_sameOptional field⟩

end Schema

end SchemaWire
