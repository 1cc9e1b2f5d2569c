import SchemaWire.Net.Folding
import SchemaWire.Net.Punycode
import SchemaWire.Text.Split
import SchemaWire.Text.Composed
import SchemaWire.Text.Direction
import SchemaWire.Text.Joining
import SchemaWire.Text.Quoted

/-!
Labels: the parts of a name between its full stops, in folded and composed form.

A label that is spelled in ASCII stands for the text it spells. A label is sound if its characters
may stand in a name, it does not begin with a mark, and every joiner in it has something to join.
In a name with a part that runs from right to left every label must moreover run one way: it begins
with a letter, ends with a letter or a digit, and holds nothing that runs the other way.
-/

namespace SchemaWire.Label

/-! ### Characters -/

/-- ASCII characters that no name holds, besides controls and the space. -/
def refusedAscii : List Char := "%#/:<>?@[\\]^|".toList

/-- Narrow characters that join or part the letters around them. -/
def isJoiner (c : Char) : Bool := c = '\u200c' || c = '\u200d'

def isNameChar (c : Char) : Bool :=
  if c.toNat < 128 then 32 < c.toNat && c.toNat ≠ 127 && !refusedAscii.contains c
  else isJoiner c ||
    (Text.isPrintable c && !Text.isBlank c && !Text.inRanges refusedRanges c.toNat)

/-! ### ASCII spelling -/

/-- The longest ASCII spelling that is read. -/
def maxSpelled : Nat := 2000

/-- The longest label beyond ASCII that is given an ASCII spelling. -/
def maxSpelling : Nat := 1000

/-- The text of a label. A label in ASCII spelling must spell a folded and composed text that needed
it. -/
def text? : List Char → Option (List Char)
  | 'x' :: 'n' :: '-' :: '-' :: spelled =>
    if maxSpelled < spelled.length then none
    else (Punycode.decode? spelled).filter fun text =>
      text.any (128 ≤ ·.toNat) && text.all isFolded && Text.composed text = text
  | label =>
    if maxSpelling < label.length && label.any (128 ≤ ·.toNat) then none else some label

/-! ### Joiners -/

/-- Whether a joiner has something to join, given what stands before it, last character first, and
what follows. Both kinds may follow a sign that drops a vowel; the one that parts letters may also
stand where the letters around it would be joined. -/
def joinerFits (joiner : Char) (before after : List Char) : Bool :=
  before.head?.any Text.isVowelKiller ||
    (joiner = '\u200c' && (before.dropWhile Text.isTransparent).head?.any Text.joinsNext &&
      (after.dropWhile Text.isTransparent).head?.any Text.joinsPrevious)

/-- Whether every joiner of a text fits; `before` is what stands before the text, last character
first. -/
def joinersFit (before : List Char) : List Char → Bool
  | [] => true
  | c :: rest => (!isJoiner c || joinerFits c before rest) && joinersFit (c :: before) rest

def isSound (label : List Char) : Bool :=
  label.all isNameChar && !label.head?.any Text.isMark && joinersFit [] label

/-! ### Direction -/

/-- Whether a direction is found only where a line runs from right to left. -/
def isTurn (direction : Text.Direction) : Bool :=
  direction = .rightToLeft || direction = .arabicNumber

/-- Whether a label may end in a character of this direction, marks apart. -/
def isEnd (direction : Text.Direction) : Bool :=
  isTurn direction || direction = .leftToRight || direction = .europeanNumber

def turns (label : List Char) : Bool := label.any (isTurn <| Text.direction ·)

def isDirected (label : List Char) : Bool :=
  let directions := label.map Text.direction
  let ends := (directions.reverse.dropWhile (· = .attached)).head?.any isEnd
  match directions with
  | [] => true
  | .leftToRight :: _ => ends && !directions.any isTurn
  | .rightToLeft :: _ =>
    ends && !directions.contains .leftToRight &&
      !(directions.contains .arabicNumber && directions.contains .europeanNumber)
  | _ => false

def areSound (labels : List (List Char)) : Bool :=
  labels.all isSound && (!labels.any turns || labels.all isDirected)

end SchemaWire.Label
