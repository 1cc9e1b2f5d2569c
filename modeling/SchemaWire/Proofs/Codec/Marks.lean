import SchemaWire.Proofs.Codec.Reading

/-!
What reading sees and the value does not show: the bytes that stand for truth values and presence,
and the keys of maps as they come, before equal ones are folded.
-/

namespace SchemaWire

/-- A thing on the wire that its value does not determine. -/
inductive Mark where
  | flag (byte : UInt8)
  | keys (keys : List Value)

namespace Mark

def Unrepeated : Mark → Prop
  | flag _ => True
  | keys ks => ks.Pairwise fun a b => (a == b) = false

def Canonical : Mark → Prop
  | flag x => x = 0 ∨ x = 1
  | keys ks => (keys ks).Unrepeated

end Mark

namespace Reader

variable {α : Type} {item : Reader α} {marks : Cursor → List Mark} {c c' : Cursor}

/-- The marks of what comes after a reader; none if it fails. -/
def after (r : Reader α) (next : α → Cursor → List Mark) (c : Cursor) : List Mark :=
  match r c with
  | .ok a c' => next a c'
  | .error _ _ => []

theorem after_of_ok {r : Reader α} {next : α → Cursor → List Mark} {a : α}
    (h : r c = .ok a c') : after r next c = next a c' := by
  rw [after, h]

def afterEach (item : Reader α) (marks : Cursor → List Mark) : Nat → Cursor → List Mark
  | 0, _ => []
  | n + 1, c => marks c ++ after item (fun _ => afterEach item marks n) c

theorem afterEach_of_ok {n : Nat} {a : α} (h : item c = .ok a c') :
    afterEach item marks (n + 1) c = marks c ++ afterEach item marks n c' := by
  rw [afterEach, after_of_ok h]

end Reader

namespace Schema

open Reader

mutual

/-- The marks in what a schema reads, in their order. -/
def marks : Schema → Cursor → List Mark
  | .scalar .bool _ => after byte fun x _ => [.flag x]
  | .scalar .. | .bytes _ => fun _ => []
  | .optional elem => after byte fun x c => .flag x :: if x = 0 then [] else marks elem c
  | .array n elem _ => afterEach (read [] elem) (marks elem) n
  | .sequence elem _ => after length (afterEach (read [] elem) (marks elem))
  | .map key val _ =>
    after length fun n c =>
      after (times (readEntry key val) n) (fun entries _ => [.keys (entries.map (·.1))]) c ++
        afterEach (readEntry key val)
          (fun c => marks key c ++ after (read [] key) (fun _ => marks val) c) n c
  | .record _ fields => fieldMarks fields

def fieldMarks : List (Field Schema) → Cursor → List Mark
  | [] => fun _ => []
  | ⟨name, type, skip, constraints⟩ :: fields => fun c =>
    (if skip then [] else marks type c) ++
      after (readField ⟨name, type, skip, constraints⟩) (fun _ => fieldMarks fields) c

end

-- The equations of these are made here once, for all the lemmas below.
attribute [local simp] marks fieldMarks

def entryMarks (key val : Schema) (c : Cursor) : List Mark :=
  marks key c ++ after (read [] key) (fun _ => marks val) c

variable {name : Option String} {c mid c' : Cursor}

theorem marks_bool {x : UInt8} (hpassed : c.Passed [x] c') :
    marks (.scalar .bool name) c = [.flag x] := by
  rw [marks, after_of_ok (byte_eq_ok.mpr hpassed)]

theorem marks_present {elem : Schema} {x : UInt8} (hx : x ≠ 0) (hpassed : c.Passed [x] mid) :
    marks (.optional elem) c = .flag x :: marks elem mid := by
  rw [marks, after_of_ok (byte_eq_ok.mpr hpassed), if_neg hx]

theorem marks_sequence {elem : Schema} {n : Nat} (hlt : n < 2 ^ 63)
    (hpassed : c.Passed (Bytes.ofLength n) mid) :
    marks (.sequence elem name) c = afterEach (read [] elem) (marks elem) n mid := by
  rw [marks, after_of_ok (length_eq_ok.mpr ⟨hlt, hpassed⟩)]

theorem marks_map {key val : Schema} {entries : Entries} (hlt : entries.length < 2 ^ 63)
    (hpassed : c.Passed (Bytes.ofLength entries.length) mid)
    (hchain : Chain (readEntry key val) mid entries c') :
    marks (.map key val name) c = .keys (entries.map (·.1)) ::
      afterEach (readEntry key val) (entryMarks key val) entries.length mid := by
  rw [marks, after_of_ok (length_eq_ok.mpr ⟨hlt, hpassed⟩),
    after_of_ok (times_eq_ok.mpr ⟨rfl, hchain⟩)]
  rfl

theorem entryMarks_of_ok {key val : Schema} {k : Value} (h : read [] key c = .ok k mid) :
    entryMarks key val c = marks key c ++ marks val mid := by
  rw [entryMarks, after_of_ok h]

theorem fieldMarks_of_ok {f : Field Schema} {fields : FieldList} {v : Value}
    (h : readField f c = .ok v mid) :
    fieldMarks (f :: fields) c =
      (if f.skip then [] else marks f.type c) ++ fieldMarks fields mid := by
  rw [fieldMarks]
  show _ ++ after (readField f) _ c = _
  rw [after_of_ok h]

end Schema

end SchemaWire
