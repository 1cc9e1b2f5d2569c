import SchemaWire.Proofs.Wire.Sequential

/-!
A reader in any use. Operations follow one another in any order, and go on after failures. Every
outcome tells which bytes it stands for, and so the outcomes of a sequence of operations tell what
it has consumed: each byte of the input once and in order, up to where the cursor stands.
-/

namespace SchemaWire.Reader

open Stateful

variable {c c' : Cursor} {e : DecodeError}

/-! ### Failures of the primitive readers -/

theorem take_eq_error {n : Nat} : take n c = .error e c' ↔
    c.remaining < n ∧ e = .unexpectedEnd c.offset n c.remaining ∧ c' = c := by
  by_cases hlt : c.remaining < n
  · rw [take_of_lt hlt, EStateM.Result.error.injEq, eq_comm, @eq_comm _ c]
    simp [hlt]
  · rw [take_of_le (Nat.le_of_not_lt hlt)]
    simp [hlt]

/-- A single byte is a byte string of length one, also where there is none. -/
theorem bytes_of_byte : (do return [← byte]) = take 1 := by
  funext c
  obtain ⟨offset, _ | ⟨b, rest⟩⟩ := c <;> rfl

theorem byte_eq_error : byte c = .error e c' ↔
    c.remaining < 1 ∧ e = .unexpectedEnd c.offset 1 c.remaining ∧ c' = c := by
  rw [← take_eq_error, ← bytes_of_byte, bind_pure_eq_error]

theorem word_eq_error {n : Nat} : word n c = .error e c' ↔
    c.remaining < n ∧ e = .unexpectedEnd c.offset n c.remaining ∧ c' = c := by
  rw [word, bind_pure_eq_error, take_eq_error]

theorem flag_eq_error : flag c = .error e c' ↔
    c.remaining < 1 ∧ e = .unexpectedEnd c.offset 1 c.remaining ∧ c' = c := by
  rw [flag, bind_pure_eq_error, byte_eq_error]

theorem length_eq_error : length c = .error e c' ↔
    (c.remaining < 8 ∧ e = .unexpectedEnd c.offset 8 c.remaining ∧ c' = c) ∨
      ∃ n : BitVec 64, n.toInt < 0 ∧ e = .negativeLength n.toInt ∧
        c.Passed (Bytes.littleEndian 8 (ZigZag.fold n).toNat) c' := by
  simp only [length, bind_eq_error, word_eq_error, word_eq_ok]
  refine or_congr_right ⟨?_, ?_⟩
  · rintro ⟨u, mid, hpassed, h⟩
    split at h
    · next hneg =>
      obtain ⟨rfl, rfl⟩ := throw_eq_error.mp h
      rw [← ZigZag.fold_unfold u] at hpassed
      exact ⟨ZigZag.unfold u, hneg, rfl, hpassed⟩
    · exact (pure_ne_error h).elim
  · rintro ⟨n, hneg, rfl, hpassed⟩
    refine ⟨ZigZag.fold n, c', hpassed, ?_⟩
    rw [ZigZag.unfold_fold, if_pos hneg]
    rfl

theorem block_eq_ok {bs : Bytes} : block c = .ok bs c' ↔
    bs.length < 2 ^ 63 ∧ c.Passed (Bytes.ofLength bs.length ++ bs) c' := by
  simp only [block, bind_eq_ok, length_eq_ok, take_eq_ok, Cursor.passed_append]
  constructor
  · rintro ⟨_, mid, ⟨hlt, hlength⟩, rfl, hbody⟩
    exact ⟨hlt, mid, hlength, hbody⟩
  · rintro ⟨hlt, mid, hlength, hbody⟩
    exact ⟨bs.length, mid, ⟨hlt, hlength⟩, rfl, hbody⟩

theorem block_eq_error : block c = .error e c' ↔ length c = .error e c' ∨
    ∃ n < 2 ^ 63, c.Passed (Bytes.ofLength n) c' ∧ c'.remaining < n ∧
      e = .unexpectedEnd c'.offset n c'.remaining := by
  simp only [block, bind_eq_error, length_eq_ok, take_eq_error]
  refine or_congr_right ⟨?_, ?_⟩
  · rintro ⟨n, _, ⟨hn, hpassed⟩, hlt, rfl, rfl⟩
    exact ⟨n, hn, hpassed, hlt, rfl⟩
  · rintro ⟨n, hn, hpassed, hlt, rfl⟩
    exact ⟨n, c', ⟨hn, hpassed⟩, hlt, rfl, rfl⟩

/-! ### Operations -/

/-- What a reader can be asked for. Numbers of one width are words, whatever their type. -/
inductive Operation where
  | take (n : Nat)
  | byte
  | word (n : Nat)
  | flag
  | length
  | block
  deriving Repr, DecidableEq

inductive Answer where
  | bytes (bs : Bytes)
  | byte (b : UInt8)
  | word (n : Nat) (x : BitVec (8 * n))
  | flag (b : Bool)
  | length (n : Nat)
  deriving Repr, DecidableEq

namespace Operation

def perform : Operation → Reader Answer
  | take n => do return .bytes (← Reader.take n)
  | byte => do return .byte (← Reader.byte)
  | word n => do return .word n (← Reader.word n)
  | flag => do return .flag (← Reader.flag)
  | length => do return .length (← Reader.length)
  | block => do return .bytes (← Reader.block)

/-- The outcome of an operation, and the cursor at which it stops, failing or not. -/
def step (op : Operation) (c : Cursor) : Except DecodeError Answer × Cursor :=
  match op.perform c with
  | .ok answer c' => (.ok answer, c')
  | .error e c' => (.error e, c')

/-- How many bytes an operation reads at once. A block is the only one that goes on reading after
that. -/
def size : Operation → Nat
  | take n | word n => n
  | byte | flag => 1
  | length | block => 8

/-- The cursor after a sequence of operations, each starting where the one before it stops. -/
def after : List Operation → Cursor → Cursor
  | [], c => c
  | op :: ops, c => after ops (op.step c).2

def outcomes : List Operation → Cursor → List (Operation × Except DecodeError Answer)
  | [], _ => []
  | op :: ops, c => (op, (op.step c).1) :: outcomes ops (op.step c).2

end Operation

/-! ### What an outcome stands for -/

/-- The bytes that an operation consumes at `offset`, as its outcome tells. Of a truth value the
outcome does not tell all. -/
inductive Stands (offset : Nat) : Operation → Except DecodeError Answer → Bytes → Prop where
  | take (bs : Bytes) : Stands offset (.take bs.length) (.ok (.bytes bs)) bs
  | byte (b : UInt8) : Stands offset .byte (.ok (.byte b)) [b]
  | word (n : Nat) (x : BitVec (8 * n)) :
      Stands offset (.word n) (.ok (.word n x)) (Bytes.littleEndian n x.toNat)
  | flag (b : UInt8) : Stands offset .flag (.ok (.flag (b ≠ 0))) [b]
  | length (n : Nat) (hn : n < 2 ^ 63) :
      Stands offset .length (.ok (.length n)) (Bytes.ofLength n)
  | block (bs : Bytes) (hbs : bs.length < 2 ^ 63) :
      Stands offset .block (.ok (.bytes bs)) (Bytes.ofLength bs.length ++ bs)
  | missing (op : Operation) (remaining : Nat) (hlt : remaining < op.size) :
      Stands offset op (.error (.unexpectedEnd offset op.size remaining)) []
  | negative (op : Operation) (hop : op = .length ∨ op = .block) (n : BitVec 64)
      (hn : n.toInt < 0) : Stands offset op (.error (.negativeLength n.toInt))
        (Bytes.littleEndian 8 (ZigZag.fold n).toNat)
  | cut (n remaining : Nat) (hn : n < 2 ^ 63) (hlt : remaining < n) :
      Stands offset .block (.error (.unexpectedEnd (offset + 8) n remaining)) (Bytes.ofLength n)

inductive Consumes : Nat → List (Operation × Except DecodeError Answer) → Bytes → Prop where
  | nil (offset : Nat) : Consumes offset [] []
  | cons {offset : Nat} {op : Operation} {outcome : Except DecodeError Answer}
      {log : List (Operation × Except DecodeError Answer)} {front back : Bytes} :
      Stands offset op outcome front → Consumes (offset + front.length) log back →
        Consumes offset ((op, outcome) :: log) (front ++ back)

namespace Operation

variable {op : Operation}

theorem stands_of_ok {answer : Answer} (h : op.perform c = .ok answer c') :
    ∃ front, c.Passed front c' ∧ Stands c.offset op (.ok answer) front := by
  cases op with
  | take n =>
      obtain ⟨bs, hread, rfl⟩ := bind_pure_eq_ok.mp h
      obtain ⟨rfl, hpassed⟩ := take_eq_ok.mp hread
      exact ⟨bs, hpassed, .take bs⟩
  | byte =>
      obtain ⟨b, hread, rfl⟩ := bind_pure_eq_ok.mp h
      exact ⟨[b], byte_eq_ok.mp hread, .byte b⟩
  | word n =>
      obtain ⟨x, hread, rfl⟩ := bind_pure_eq_ok.mp h
      exact ⟨_, word_eq_ok.mp hread, .word n x⟩
  | flag =>
      obtain ⟨_, hread, rfl⟩ := bind_pure_eq_ok.mp h
      obtain ⟨b, hpassed, rfl⟩ := flag_eq_ok.mp hread
      exact ⟨[b], hpassed, .flag b⟩
  | length =>
      obtain ⟨n, hread, rfl⟩ := bind_pure_eq_ok.mp h
      obtain ⟨hn, hpassed⟩ := length_eq_ok.mp hread
      exact ⟨_, hpassed, .length n hn⟩
  | block =>
      obtain ⟨bs, hread, rfl⟩ := bind_pure_eq_ok.mp h
      obtain ⟨hbs, hpassed⟩ := block_eq_ok.mp hread
      exact ⟨_, hpassed, .block bs hbs⟩

theorem perform_eq_error (h : op.perform c = .error e c') :
    (c.remaining < op.size ∧ e = .unexpectedEnd c.offset op.size c.remaining ∧ c' = c) ∨
      ((op = .length ∨ op = .block) ∧ ∃ n : BitVec 64, n.toInt < 0 ∧ e = .negativeLength n.toInt ∧
        c.Passed (Bytes.littleEndian 8 (ZigZag.fold n).toNat) c') ∨
      (op = .block ∧ ∃ n < 2 ^ 63, c.Passed (Bytes.ofLength n) c' ∧ c'.remaining < n ∧
        e = .unexpectedEnd c'.offset n c'.remaining) := by
  cases op with
  | take n => exact .inl (take_eq_error.mp (bind_pure_eq_error.mp h))
  | byte => exact .inl (byte_eq_error.mp (bind_pure_eq_error.mp h))
  | word n => exact .inl (word_eq_error.mp (bind_pure_eq_error.mp h))
  | flag => exact .inl (flag_eq_error.mp (bind_pure_eq_error.mp h))
  | length =>
      rcases length_eq_error.mp (bind_pure_eq_error.mp h) with hmissing | hnegative
      · exact .inl hmissing
      · exact .inr (.inl ⟨.inl rfl, hnegative⟩)
  | block =>
      rcases block_eq_error.mp (bind_pure_eq_error.mp h) with hlength | hbody
      · rcases length_eq_error.mp hlength with hmissing | hnegative
        · exact .inl hmissing
        · exact .inr (.inl ⟨.inr rfl, hnegative⟩)
      · exact .inr (.inr ⟨rfl, hbody⟩)

theorem stands_of_error (h : op.perform c = .error e c') :
    ∃ front, c.Passed front c' ∧ Stands c.offset op (.error e) front := by
  rcases perform_eq_error h with ⟨hlt, rfl, rfl⟩ | ⟨hop, n, hn, rfl, hpassed⟩ |
    ⟨rfl, n, hn, hpassed, hlt, rfl⟩
  · exact ⟨[], Cursor.passed_nil.mpr rfl, .missing op _ hlt⟩
  · exact ⟨_, hpassed, .negative op hop n hn⟩
  · rw [hpassed.2, Bytes.length_ofLength]
    exact ⟨_, hpassed, .cut n _ hn hlt⟩

theorem stands_step (op : Operation) (c : Cursor) :
    ∃ front, c.Passed front (op.step c).2 ∧ Stands c.offset op (op.step c).1 front := by
  unfold step
  cases h : op.perform c with
  | ok answer c' => exact stands_of_ok h
  | error e c' => exact stands_of_error h

theorem perform_of_step (h : (op.step c).1 = .error e) :
    op.perform c = .error e (op.step c).2 := by
  unfold step at h ⊢
  split at h
  · cases h
  · cases h
    assumption

/-- An operation that reads only once and finds too little leaves the cursor where it is. -/
theorem missing_of_step (hop : op ≠ .block) {place requested remaining : Nat}
    (h : (op.step c).1 = .error (.unexpectedEnd place requested remaining)) :
    (op.step c).2 = c ∧ place = c.offset ∧ requested = op.size ∧ remaining = c.remaining ∧
      remaining < requested := by
  rcases perform_eq_error (perform_of_step h) with ⟨hlt, heq, hstop⟩ | ⟨-, n, -, heq, -⟩ |
    ⟨hblock, -⟩
  · cases heq
    exact ⟨hstop, rfl, rfl, rfl, hlt⟩
  · cases heq
  · exact (hop hblock).elim

theorem offset_of_negative {n : Int} (h : (op.step c).1 = .error (.negativeLength n)) :
    (op.step c).2.offset = c.offset + 8 := by
  rcases perform_eq_error (perform_of_step h) with ⟨-, heq, -⟩ | ⟨-, k, -, -, hpassed⟩ |
    ⟨-, k, -, -, -, heq⟩
  · cases heq
  · rw [hpassed.2, Bytes.length_littleEndian]
  · cases heq

end Operation

theorem consumes_outcomes (ops : List Operation) (c : Cursor) :
    ∃ front, c.Passed front (Operation.after ops c) ∧
      Consumes c.offset (Operation.outcomes ops c) front := by
  induction ops generalizing c with
  | nil => exact ⟨[], Cursor.passed_nil.mpr rfl, .nil c.offset⟩
  | cons op ops ih =>
      obtain ⟨front, hpassed, hstands⟩ := op.stands_step c
      obtain ⟨back, hpassed', hconsumes⟩ := ih (op.step c).2
      rw [hpassed.2] at hconsumes
      exact ⟨front ++ back, hpassed.trans hpassed', .cons hstands hconsumes⟩

theorem take_eq_ok_iff_le {n : Nat} : (∃ bs c', take n c = .ok bs c') ↔ n ≤ c.remaining := by
  constructor
  · rintro ⟨bs, c', h⟩
    refine Nat.le_of_not_lt fun hlt => ?_
    rw [take_of_lt hlt] at h
    cases h
  · intro hle
    exact ⟨_, _, take_of_le hle⟩

theorem block_apply (c : Cursor) : block c = match length c with
    | .ok n mid => take n mid
    | .error e mid => .error e mid := by
  cases h : length c with
  | ok n mid => exact bind_of_ok h
  | error e mid => exact bind_of_error h

theorem rest_of_passed_start {buffer front : Bytes} (h : (Cursor.start buffer).Passed front c) :
    c.rest = buffer.drop c.offset := by
  obtain ⟨hbuffer, hoffset⟩ := h
  have hbuffer : buffer = front ++ c.rest := hbuffer
  have hoffset : front.length = c.offset := (hoffset.trans (Nat.zero_add _)).symm
  rw [hbuffer, List.drop_left' hoffset]

/-- Whatever has been asked of a reader, with whatever outcomes, it has consumed the bytes for which
the outcomes stand, one after the other, and these are the bytes of the buffer up to its offset. It
has the rest of the buffer left, and takes as many bytes as are asked for exactly if these are
there. No operation moves it back. An operation that reads only once and finds too little does not
move it and says what is missing where; a negative length is refused after its eight bytes; and a
block is a length and then as many bytes. -/
theorem consumes_from_start (buffer : Bytes) (ops : List Operation) :
    let c := Operation.after ops (.start buffer)
    c.offset ≤ buffer.length ∧ c.rest = buffer.drop c.offset ∧
      c.remaining = buffer.length - c.offset ∧
      Consumes 0 (Operation.outcomes ops (.start buffer)) (buffer.take c.offset) ∧
      (∀ op : Operation, c.offset ≤ (op.step c).2.offset) ∧
      (∀ n, (∃ bs c', take n c = .ok bs c') ↔ n ≤ c.remaining) ∧
      (do return [← byte] : Reader Bytes) c = take 1 c ∧
      (∀ op : Operation, op ≠ .block → ∀ place requested remaining,
        (op.step c).1 = .error (.unexpectedEnd place requested remaining) →
          (op.step c).2 = c ∧ place = c.offset ∧ requested = op.size ∧
            remaining = c.remaining ∧ remaining < requested) ∧
      (∀ n, (Operation.length.step c).1 = .error (.negativeLength n) →
        (Operation.length.step c).2.offset = c.offset + 8) ∧
      block c = match length c with
        | .ok n mid => take n mid
        | .error e mid => .error e mid := by
  intro c
  obtain ⟨front, hpassed, hconsumes⟩ := consumes_outcomes ops (.start buffer)
  obtain ⟨hle, rfl⟩ := eq_take_of_passed hpassed
  have hrest := rest_of_passed_start hpassed
  have hremaining : c.remaining = buffer.length - c.offset := by
    rw [Cursor.remaining, hrest, List.length_drop]
  refine ⟨hle, hrest, hremaining, hconsumes, fun op => ?_, fun n => take_eq_ok_iff_le,
    congrFun bytes_of_byte c, fun op hop _ _ _ => op.missing_of_step hop,
    fun _ => Operation.offset_of_negative, block_apply c⟩
  obtain ⟨_, hpassed', -⟩ := op.stands_step c
  exact Nat.le.intro hpassed'.2.symm

/-- A number, a length and a block are missing from three bytes, which are then read anyway. -/
example : Operation.outcomes [.word 4, .byte, .length, .block, .take 2, .flag] (.start [1, 2, 3]) =
    [(.word 4, .error (.unexpectedEnd 0 4 3)), (.byte, .ok (.byte 1)),
      (.length, .error (.unexpectedEnd 1 8 2)), (.block, .error (.unexpectedEnd 1 8 2)),
      (.take 2, .ok (.bytes [2, 3])), (.flag, .error (.unexpectedEnd 3 1 0))] := by
  rfl

end SchemaWire.Reader
