import SchemaWire.Static.Type
import SchemaWire.Wire.Reader
import SchemaWire.Wire.Sink

/-!
The wire form of static types. It is the form that schemas of the same structure have, but nothing
here goes by way of schemas or of their values: writing cannot fail, because a value of a type has
the type's shape, and reading builds values of the type at once.
-/

namespace SchemaWire

def Reader.exactly {α : Type} (item : Reader α) :
    (n : Nat) → Reader { as : List α // as.length = n }
  | 0 => return ⟨[], rfl⟩
  | n + 1 => do
    let a ← item
    let as ← exactly item n
    return ⟨a :: as.val, congrArg (· + 1) as.property⟩

namespace StaticType

open Reader

variable {σ : Type} [Sink σ]

/-- Pushes a value. A table is pushed in the order in which it is listed. -/
def write : (t : StaticType) → t.Carrier → Push σ
  | .num _, x => .word x
  | .bool, b => .flag b
  | .string, s => .block (Text.utf8 s)
  | .bytes, bs => .announced bs
  | .option _, none => .flag false
  | .option t, some x => .andThen (.flag true) (t.write x)
  | .array _ t, items => .each t.write items.val
  | .list t, items => .andThen (.length items.length) (.each t.write items)
  | .table k v, x =>
    .andThen (.length x.entries.length)
      (.each (fun e => .andThen (k.write e.1) (v.write e.2)) x.entries)
  | .sortedTable k v, x =>
    .andThen (.length x.entries.length)
      (.each (fun e => .andThen (k.write e.1) (v.write e.2)) x.entries)

/-- Reads a value whose length, if it begins with one, is bounded by `gate`. -/
def read (gate : List Constraint) : (t : StaticType) → Reader t.Carrier
  | .num k => word k.width
  | .bool => flag
  | .string => do text (← gatedLength gate)
  | .bytes => do take (← gatedLength gate)
  | .option t => do if ← flag then return some (← t.read []) else return none
  | .array n t => exactly (t.read []) n
  | .list t => do times (t.read []) (← gatedLength gate)
  | .table k v => do
    return .ofList (← times (return (← k.read [], ← v.read [])) (← gatedLength gate))
  | .sortedTable k v => do
    return .ofList (← times (return (← k.read [], ← v.read [])) (← gatedLength gate))

/-- Reads a presence, and a value within `gate` if it is present. -/
def readOption (gate : List Constraint) (t : StaticType) : Reader (Option t.Carrier) := do
  if ← flag then return some (← t.read gate) else return none

def encode (t : StaticType) (x : t.Carrier) : Bytes := (t.write x Buffer.empty).2.toList

def encodedSize (t : StaticType) (x : t.Carrier) : Nat := (t.write x Counter.mk).1

/-- The value that the input starts with; what follows it does not matter. -/
def decode (t : StaticType) (input : Bytes) : Except DecodeError t.Carrier :=
  (t.read []).run input

/-- The value of which the input is an encoding, with nothing left over. -/
def decodeAll (t : StaticType) (input : Bytes) : Except DecodeError t.Carrier :=
  Reader.run (do let x ← t.read []; atEnd; return x) input

end StaticType

end SchemaWire
