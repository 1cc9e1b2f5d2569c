import SchemaWire.Text.Category

/-!
Regular patterns that can be both run and written down.

A pattern is a tree of character classes, sequences, alternatives and repetitions. It has a source
text, which emitted programs hand to their own matcher, and it decides here whether it matches a
whole text. Matching keeps the set of *tasks* that are still open, a task being a list of patterns
to be matched one after the other; each character of the text turns the open tasks into those that
remain after it. The text is matched if some task is left that nothing more is needed for.
-/

namespace SchemaWire

/-- How a character is spelled in the source of a pattern. -/
inductive Spelling where
  | plain
  | escaped
  | short
  | long
  deriving Repr, DecidableEq

structure Spelled where
  spelling : Spelling
  char : Char
  deriving Repr, DecidableEq

/-- `width` hexadecimal digits; letters are uppercase if `upper`. -/
def Spelled.digits (upper : Bool) (width n : Nat) : List Char :=
  let ds := Nat.toDigits 16 n
  let ds := if upper then ds.map Char.toUpper else ds
  List.replicate (width - ds.length) '0' ++ ds

def Spelled.source (s : Spelled) : List Char :=
  match s.spelling with
  | .plain => [s.char]
  | .escaped => ['\\', s.char]
  | .short => '\\' :: 'x' :: digits false 2 s.char.toNat
  | .long => '\\' :: 'x' :: '\x7b' :: (digits true 4 s.char.toNat ++ ['\x7d'])

/-- A set of characters with a short written form. -/
inductive CharSet where
  | one (c : Spelled)
  | range (lo hi : Spelled)
  /-- letters of every script -/
  | letters
  /-- decimal digits of every script -/
  | numerals
  /-- the same digits in their one-letter form -/
  | digits
  deriving Repr, DecidableEq

namespace CharSet

def source : CharSet → List Char
  | one c => c.source
  | range lo hi => lo.source ++ '-' :: hi.source
  | letters => "\\p\x7bL\x7d".toList
  | numerals => "\\p\x7bNd\x7d".toList
  | digits => "\\d".toList

def holds (c : Char) : CharSet → Bool
  | one x => x.char = c
  | range lo hi => lo.char ≤ c && c ≤ hi.char
  | letters => Text.isLetter c
  | numerals => Text.isDecimalDigit c
  | digits => Text.isDecimalDigit c

end CharSet

/-- A regular pattern. Alternatives bind weakest, so they stand in a group unless they are all. -/
inductive Pattern where
  /-- one character of a set, written without brackets -/
  | set (s : CharSet)
  /-- one character of any of the sets, written in brackets -/
  | anyOf (sets : List CharSet)
  | seq (p q : Pattern)
  | alt (p q : Pattern)
  | group (p : Pattern)
  /-- any number of times -/
  | star (p : Pattern)
  /-- at least once -/
  | plus (p : Pattern)
  /-- at most once -/
  | opt (p : Pattern)
  /-- exactly `n` times -/
  | times (p : Pattern) (n : Nat)
  deriving Repr, DecidableEq

namespace Pattern

def source : Pattern → List Char
  | set s => s.source
  | anyOf sets => '[' :: (sets.flatMap CharSet.source ++ [']'])
  | seq p q => p.source ++ q.source
  | alt p q => p.source ++ '|' :: q.source
  | group p => "(?:".toList ++ p.source ++ [')']
  | star p => p.source ++ ['*']
  | plus p => p.source ++ ['+']
  | opt p => p.source ++ ['?']
  | times p n => p.source ++ '\x7b' :: (Nat.toDigits 10 n ++ ['\x7d'])

/-- The written form of a pattern that has to match the whole text. -/
def anchored (p : Pattern) : String := String.ofList ('^' :: (p.source ++ ['$']))

def nullable : Pattern → Bool
  | set _ => false
  | anyOf _ => false
  | seq p q => p.nullable && q.nullable
  | alt p q => p.nullable || q.nullable
  | group p => p.nullable
  | star _ => true
  | plus p => p.nullable
  | opt _ => true
  | times p n => n = 0 || p.nullable

/-- What is left to match once `c` has been read as the first character. -/
def after (c : Char) : Pattern → List (List Pattern)
  | set s => if s.holds c then [[]] else []
  | anyOf sets => if sets.any (CharSet.holds c) then [[]] else []
  | seq p q => (p.after c).map (· ++ [q]) ++ if p.nullable then q.after c else []
  | alt p q => p.after c ++ q.after c
  | group p => p.after c
  | star p => (p.after c).map (· ++ [star p])
  | plus p => (p.after c).map (· ++ [star p])
  | opt p => p.after c
  | times p n => if n = 0 then [] else (p.after c).map (· ++ [times p (n - 1)])

def taskAfter (c : Char) : List Pattern → List (List Pattern)
  | [] => []
  | p :: rest => (p.after c).map (· ++ rest) ++ if p.nullable then taskAfter c rest else []

def tasksMatch (tasks : List (List Pattern)) : List Char → Bool
  | [] => tasks.any fun task => task.all nullable
  | c :: cs => tasksMatch (tasks.flatMap (taskAfter c)).eraseDups cs

def accepts (p : Pattern) (s : String) : Bool := tasksMatch [[p]] s.toList

end Pattern

end SchemaWire
