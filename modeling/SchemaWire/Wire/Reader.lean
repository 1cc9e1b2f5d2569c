import SchemaWire.Bytes
import SchemaWire.Constraint.Basic
import SchemaWire.Text.Utf8

/-!
Reading bytes. A reader moves a cursor over the input; what it has consumed before it fails stays
consumed, so the cursor that a failure leaves behind says how far reading got. Numbers are written
little end first, and a length is a zig-zag coded word of eight bytes.
-/

namespace SchemaWire

inductive DecodeError where
  /-- at `offset`, `requested` bytes are needed and only `remaining` are left -/
  | unexpectedEnd (offset requested remaining : Nat)
  | negativeLength (length : Int)
  | invalidText (fault : Text.Utf8Fault)
  | violation (constraint : Constraint)
  | trailing (count : Nat)
  deriving Repr, DecidableEq

def DecodeError.message : DecodeError → String
  | .unexpectedEnd offset requested remaining =>
    s!"unexpected end of input: requested {requested} bytes at offset {offset}, " ++
      s!"{remaining} remaining"
  | .negativeLength n => s!"length prefix decodes to negative length {n}"
  | .invalidText fault => "invalid utf-8 in string: " ++ fault.message
  | .violation c => c.description
  | .trailing n => s!"{n} trailing bytes left after decoding"

/-- A place in the input: how many bytes lie behind it, and the bytes ahead. -/
structure Cursor where
  offset : Nat
  rest : Bytes
  deriving Repr, DecidableEq

namespace Cursor

def start (input : Bytes) : Cursor := ⟨0, input⟩

def remaining (c : Cursor) : Nat := c.rest.length

def advance (c : Cursor) (n : Nat) : Cursor := ⟨c.offset + n, c.rest.drop n⟩

end Cursor

abbrev Reader := EStateM DecodeError Cursor

namespace Reader

variable {α : Type}

def byte : Reader UInt8 := fun c =>
  match c.rest with
  | b :: rest => .ok b ⟨c.offset + 1, rest⟩
  | [] => .error (.unexpectedEnd c.offset 1 0) c

def take (n : Nat) : Reader Bytes := fun c =>
  let taken := c.rest.take n
  if taken.length < n then .error (.unexpectedEnd c.offset n c.remaining) c
  else .ok taken (c.advance n)

def word (n : Nat) : Reader (BitVec (8 * n)) := do
  return BitVec.ofNat (8 * n) (Bytes.ofLittleEndian (← take n))

/-- A truth value; every byte but zero is true. -/
def flag : Reader Bool := do return (← byte) ≠ 0

/-- A length. A negative one is refused once its bytes are consumed. -/
def length : Reader Nat := do
  let n := (ZigZag.unfold (← word 8)).toInt
  if n < 0 then throw (.negativeLength n) else return n.toNat

def block : Reader Bytes := do take (← length)

/-- The text in the next `n` bytes, which are consumed even if they are no text. -/
def text (n : Nat) : Reader String := do
  match Text.ofUtf8 (← take n) with
  | .ok s => return s
  | .error fault => throw (.invalidText fault)

def times (item : Reader α) : Nat → Reader (List α)
  | 0 => return []
  | n + 1 => do
    let a ← item
    let as ← times item n
    return a :: as

/-- Fails with a violation of the first constraint that a test does not pass. -/
def require (passes : Constraint → Bool) (constraints : List Constraint) : Reader Unit :=
  match constraints.find? fun c => !passes c with
  | some c => throw (.violation c)
  | none => return

def gatedLength (gate : List Constraint) : Reader Nat := do
  let n ← length
  require (fun c => c.rule.admitsLength n) gate
  return n

def atEnd : Reader Unit := fun c =>
  match c.remaining with
  | 0 => .ok () c
  | n + 1 => .error (.trailing (n + 1)) c

def run (reader : Reader α) (input : Bytes) : Except DecodeError α :=
  match reader (.start input) with
  | .ok a _ => .ok a
  | .error e _ => .error e

end Reader

end SchemaWire
