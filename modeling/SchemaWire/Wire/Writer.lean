import SchemaWire.Wire.Sink

/-!
Writers that may run out of room, and sinks over them. A writer takes some of what it is offered;
offering it all of a run means offering what is left until nothing is. The sink over a writer
keeps the first failure and writes nothing more, even if the writer would take bytes again, so what
the writer holds never has a gap.
-/

namespace SchemaWire

inductive WriteError where
  | full
  /-- the writer took nothing of what it was offered -/
  | stalled
  | flush
  deriving Repr, DecidableEq

def WriteError.message : WriteError → String
  | .full => "full"
  | .stalled => "failed to write whole buffer"
  | .flush => "flush failed"

inductive WriterMode where
  /-- a full writer refuses what it is offered -/
  | refusing
  /-- a full writer takes nothing and says so -/
  | stalling
  /-- a full writer refuses once and has room without limit from then on -/
  | recovering
  /-- a full writer refuses what it is offered, and flushing fails -/
  | unflushable
  deriving Repr, DecidableEq

/-- A writer: what it holds, how many bytes it holds at most and how many it takes at a time, each
without limit if absent. -/
structure Writer where
  held : Buffer
  capacity : Option Nat
  chunk : Option Nat
  mode : WriterMode
  deriving Repr, DecidableEq

namespace Writer

def new (capacity chunk : Option Nat) (mode : WriterMode) : Writer :=
  ⟨.empty, capacity, chunk, mode⟩

/-- `n`, or less where there is a limit. -/
def limited (limit : Option Nat) (n : Nat) : Nat :=
  match limit with
  | some most => min most n
  | none => n

def room (w : Writer) (n : Nat) : Nat :=
  limited (w.capacity.map (· - w.held.bytes.size)) n

/-- Offers bytes to the writer, which answers with the number it takes. -/
def write (w : Writer) (bs : Bytes) : Except WriteError Nat × Writer :=
  if bs.isEmpty then (.ok 0, w)
  else
    match w.room bs.length, w.mode with
    | 0, .stalling => (.ok 0, w)
    | 0, .recovering => (.error .full, { w with capacity := none })
    | 0, _ => (.error .full, w)
    | n, _ =>
      let n := limited w.chunk n
      (.ok n, { w with held := w.held.append (bs.take n) })

def writeAll (w : Writer) : Bytes → Option WriteError × Writer
  | [] => (none, w)
  | b :: bs =>
    match w.write (b :: bs) with
    | (.error e, w) => (some e, w)
    | (.ok 0, w) => (some .stalled, w)
    | (.ok (n + 1), w) => w.writeAll (bs.drop n)
termination_by bs => bs.length
decreasing_by simp only [List.length_cons, List.length_drop]; omega

def flush (w : Writer) : Option WriteError :=
  if w.mode = .unflushable then some .flush else none

end Writer

/-- The sink over a writer, with the first failure of the writer. -/
structure Latch where
  writer : Writer
  fault : Option WriteError
  deriving Repr, DecidableEq

namespace Latch

def ofWriter (w : Writer) : Latch := ⟨w, none⟩

def write (l : Latch) (bs : Bytes) : Latch :=
  match l.fault with
  | some _ => l
  | none =>
    let (fault, writer) := l.writer.writeAll bs
    ⟨writer, fault⟩

/-- The first failure, be it of a write or of the flush at the end. -/
def finish (l : Latch) : Option WriteError :=
  match l.fault with
  | some e => some e
  | none => l.writer.flush

instance : Sink Latch where
  pushByte b l := (1, l.write [b])
  pushBlock bs l := (bs.length, l.write bs)
  pushRun bs l := (bs.length, l.write bs)
  anticipate _ l := l

end Latch

end SchemaWire
