import Std.Data.HashMap
import SchemaWire.Value.Equality

/-!
The entries of a map while it is being read. A key that comes again keeps its place and takes the
later value. An index from keys to places saves searching the entries: keys that feed the same data
to a hash function share a bucket, and within a bucket equality decides.

Equal values feed the same data: floats feed their bits, and maps and records, whose order does not
count, feed nothing but their size.
-/

namespace SchemaWire

/-! ### Hashed data -/

inductive Datum where
  | form (form : Form)
  | text (s : String)
  | flag (b : Bool)
  | word (n : Nat)
  | count (n : Nat)
  | bytes (bs : Bytes)
  deriving DecidableEq, Hashable

namespace Value

mutual

def feed : Value → List Datum
  | .text s => [.form (.scalar .string), .text s]
  | .flag b => [.form (.scalar .bool), .flag b]
  | .num n => [.form (.scalar (.num n.kind)), .word n.word.toNat]
  | .absent => [.form .optional, .flag false]
  | .present v => .form .optional :: .flag true :: feed v
  | .array items => .form .array :: .count items.length :: feedItems items
  | .sequence items => .form .sequence :: .count items.length :: feedItems items
  | .map entries => [.form .map, .count entries.length]
  | .bytes bs => [.form .bytes, .bytes bs]
  | .record fields => [.form .record, .count fields.length]

def feedItems : List Value → List Datum
  | [] => []
  | v :: vs => feed v ++ feedItems vs

end

end Value

/-! ### Entries -/

/-- Places of keys, by the data that the keys feed. -/
structure KeyIndex where
  buckets : Std.HashMap (List Datum) (List (Value × Nat))

namespace KeyIndex

def empty : KeyIndex := ⟨∅⟩

def bucket (index : KeyIndex) (key : Value) : List (Value × Nat) :=
  index.buckets.getD key.feed []

/-- The place of the first stored key that equals `key`. -/
def find? (index : KeyIndex) (key : Value) : Option Nat :=
  ((index.bucket key).find? fun e => e.1 == key).map (·.2)

def insert (index : KeyIndex) (key : Value) (place : Nat) : KeyIndex :=
  ⟨index.buckets.insert key.feed (index.bucket key ++ [(key, place)])⟩

end KeyIndex

/-- Entries in order of first occurrence, with the places of their keys. -/
structure EntryTable where
  entries : Array (Value × Value)
  index : KeyIndex

namespace EntryTable

def empty : EntryTable := ⟨#[], .empty⟩

/-- Adds an entry: at the end if its key is new, as the new value of the old key otherwise. -/
def add (table : EntryTable) (key value : Value) : EntryTable :=
  match table.index.find? key with
  | some place => { table with entries := table.entries.modify place fun e => (e.1, value) }
  | none => ⟨table.entries.push (key, value), table.index.insert key table.entries.size⟩

def ofList (entries : List (Value × Value)) : EntryTable :=
  entries.foldl (fun table e => table.add e.1 e.2) empty

def toList (table : EntryTable) : List (Value × Value) := table.entries.toList

end EntryTable

end SchemaWire
