import SchemaWire.Bytes

/-!
Text as UTF-8 bytes. Decoding either gives the one text whose encoding the bytes are, or says where
the bytes stop being text and whether they break off in the middle of a character.
-/

namespace SchemaWire.Text

def utf8 (s : String) : Bytes := s.toUTF8.data.toList

/-- Why bytes are not UTF-8: after `validUpTo` good bytes either `width` bytes start no character,
or, when `width` is absent, the bytes end inside a character. -/
structure Utf8Fault where
  validUpTo : Nat
  width : Option Nat
  deriving Repr, DecidableEq

def Utf8Fault.message : Utf8Fault → String
  | ⟨i, some n⟩ => s!"invalid utf-8 sequence of {n} bytes from index {i}"
  | ⟨i, none⟩ => s!"incomplete utf-8 byte sequence from index {i}"

def isTail (b : UInt8) : Bool := 0x80 ≤ b && b ≤ 0xBF

/-- The second byte that may follow the first byte `a` of a character of three or four bytes:
overlong forms, surrogates and numbers past the last code point are ruled out here. -/
def fitsSecond (a b : UInt8) : Bool :=
  if a = 0xE0 then 0xA0 ≤ b && b ≤ 0xBF
  else if a = 0xED then 0x80 ≤ b && b ≤ 0x9F
  else if a = 0xF0 then 0x90 ≤ b && b ≤ 0xBF
  else if a = 0xF4 then 0x80 ≤ b && b ≤ 0x8F
  else isTail b

/-- How many bytes the character begun by `a` takes; 0 when `a` begins none. -/
def charWidth (a : UInt8) : Nat :=
  if a < 0x80 then 1
  else if 0xC2 ≤ a && a ≤ 0xDF then 2
  else if 0xE0 ≤ a && a ≤ 0xEF then 3
  else if 0xF0 ≤ a && a ≤ 0xF4 then 4
  else 0

/-- What is wrong with the character at the head of the bytes: nothing and its width, or the width
of the broken part, absent when the bytes end too early. -/
def headFault (a : UInt8) (rest : Bytes) : Except (Option Nat) Nat :=
  match charWidth a, rest with
  | 1, _ => .ok 1
  | 2, [] => .error none
  | 2, b :: _ => if isTail b then .ok 2 else .error (some 1)
  | 3, [] => .error none
  | 3, [b] => if fitsSecond a b then .error none else .error (some 1)
  | 3, b :: c :: _ =>
    if !fitsSecond a b then .error (some 1)
    else if isTail c then .ok 3
    else .error (some 2)
  | 4, [] => .error none
  | 4, [b] => if fitsSecond a b then .error none else .error (some 1)
  | 4, [b, c] =>
    if !fitsSecond a b then .error (some 1)
    else if isTail c then .error none
    else .error (some 2)
  | 4, b :: c :: d :: _ =>
    if !fitsSecond a b then .error (some 1)
    else if !isTail c then .error (some 2)
    else if isTail d then .ok 4
    else .error (some 3)
  | _, _ => .error (some 1)

/-- The first fault of bytes that are not UTF-8, `done` good bytes having been passed. -/
def firstFault (done : Nat) : Bytes → Utf8Fault
  | [] => ⟨done, none⟩
  | a :: rest =>
    match headFault a rest with
    | .error width => ⟨done, width⟩
    | .ok width => firstFault (done + width) (rest.drop (width - 1))
termination_by bs => bs.length
decreasing_by simp only [List.length_cons, List.length_drop]; omega

def ofUtf8 (bs : Bytes) : Except Utf8Fault String :=
  match String.fromUTF8? ⟨bs.toArray⟩ with
  | some s => .ok s
  | none => .error (firstFault 0 bs)

@[simp] theorem ofUtf8_utf8 (s : String) : ofUtf8 (utf8 s) = .ok s := by
  have h : String.fromUTF8? ⟨(utf8 s).toArray⟩ = some s := by
    simp only [utf8, Array.toArray_toList, String.fromUTF8?]
    exact dif_pos s.isValidUTF8
  simp [ofUtf8, h]

theorem utf8_of_ofUtf8 {bs : Bytes} {s : String} (h : ofUtf8 bs = .ok s) : utf8 s = bs := by
  unfold ofUtf8 String.fromUTF8? at h
  split at h
  · next heq =>
    split at heq
    · cases h; cases heq; simp [utf8, String.fromUTF8]
    · cases heq
  · cases h

theorem length_utf8 (s : String) : (utf8 s).length = s.utf8ByteSize := by
  simp [utf8]

end SchemaWire.Text
