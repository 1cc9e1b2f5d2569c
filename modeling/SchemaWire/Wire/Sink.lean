import SchemaWire.Bytes

/-!
Sinks: where encoders put their bytes. A sink takes single bytes, blocks whose size is known
beforehand and runs of any size, and answers each with the number of bytes it was given. Nothing
that a sink does can stop an encoder.
-/

namespace SchemaWire

/-- A push: from a sink to the number of bytes pushed and the sink afterwards. -/
abbrev Push (σ : Type) := σ → Nat × σ

class Sink (σ : Type) where
  pushByte : UInt8 → Push σ
  pushBlock : Bytes → Push σ
  pushRun : Bytes → Push σ
  /-- announces how many bytes will follow -/
  anticipate : Nat → σ → σ

namespace Push

variable {σ : Type}

def nothing : Push σ := fun sink => (0, sink)

/-- One push after the other; their counts add up. -/
def andThen (first second : Push σ) : Push σ := fun sink =>
  let (m, sink) := first sink
  let (n, sink) := second sink
  (m + n, sink)

def each {α : Type} (item : α → Push σ) : List α → Push σ
  | [] => nothing
  | a :: as => andThen (item a) (each item as)

variable [Sink σ]

def byte (b : UInt8) : Push σ := Sink.pushByte b

def flag (b : Bool) : Push σ := byte (if b then 1 else 0)

def word {n : Nat} (x : BitVec (8 * n)) : Push σ := Sink.pushBlock (Bytes.littleEndian n x.toNat)

/-- A length. Only its low 64 bits travel. -/
def length (n : Nat) : Push σ := word (n := 8) (ZigZag.fold (BitVec.ofNat 64 n))

def block (bs : Bytes) : Push σ := andThen (length bs.length) (Sink.pushRun bs)

/-- A byte string with its length, both announced before they are pushed. -/
def announced (bs : Bytes) : Push σ := fun sink =>
  block bs (Sink.anticipate (8 + bs.length) sink)

end Push

structure Buffer where
  bytes : Array UInt8
  deriving Repr, DecidableEq

namespace Buffer

def empty : Buffer := ⟨#[]⟩

def ofList (bs : Bytes) : Buffer := ⟨bs.toArray⟩

def toList (b : Buffer) : Bytes := b.bytes.toList

def push (b : Buffer) (x : UInt8) : Buffer := ⟨b.bytes.push x⟩

def append (b : Buffer) (bs : Bytes) : Buffer := ⟨b.bytes ++ bs⟩

instance : Sink Buffer where
  pushByte x b := (1, b.push x)
  pushBlock bs b := (bs.length, bs.foldl push b)
  pushRun bs b := (bs.length, b.append bs)
  anticipate _ b := b

end Buffer

/-- A sink that keeps nothing; its answers are all that is of use. -/
structure Counter where
  deriving Repr, DecidableEq

instance : Sink Counter where
  pushByte _ c := (1, c)
  pushBlock bs c := (bs.length, c)
  pushRun bs c := (bs.length, c)
  anticipate _ c := c

end SchemaWire
