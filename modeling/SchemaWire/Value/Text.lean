import SchemaWire.Value.Basic
import SchemaWire.Text.Quoted

/-!
The text of a value. Texts stand in quotes and byte strings in lowercase hexadecimal; items, entries
and fields are separated by blanks.
-/

namespace SchemaWire

namespace Bytes

def hexDigit (d : Nat) : Char :=
  if d < 10 then Char.ofNat (48 + d) else Char.ofNat (87 + d)

def hex (bs : Bytes) : String :=
  String.ofList (bs.flatMap fun b => [hexDigit (b.toNat / 16), hexDigit (b.toNat % 16)])

/-- The text of a byte string inside a printed value. -/
def text (bs : Bytes) : String := "Bytes(0x" ++ hex bs ++ ")"

end Bytes

namespace Value

mutual

def toText : Value → String
  | .text s => Text.quoted s
  | .flag b => toString b
  | .num n => n.text
  | .absent => "nil"
  | .present v => "&" ++ toText v
  | .array items => "[" ++ " ".intercalate (itemTexts items) ++ "]"
  | .sequence items => "[" ++ " ".intercalate (itemTexts items) ++ "]"
  | .map entries => "map[" ++ " ".intercalate (entryTexts entries) ++ "]"
  | .bytes bs => bs.text
  | .record fields => "\x7b" ++ " ".intercalate (fieldTexts fields) ++ "\x7d"

def itemTexts : List Value → List String
  | [] => []
  | v :: vs => toText v :: itemTexts vs

def entryTexts : List (Value × Value) → List String
  | [] => []
  | (k, v) :: es => (toText k ++ ":" ++ toText v) :: entryTexts es

def fieldTexts : List (String × Value) → List String
  | [] => []
  | (n, v) :: fs => (n ++ ":" ++ toText v) :: fieldTexts fs

end

end Value

end SchemaWire
