import SchemaWire.Text.Quoted

/-!
Tokens of emitted source and their text. Tokens stand one blank apart, except that a mark which is
joined to the next one touches it. Round and square groups hold their tokens closely, braces keep a
blank on either side.
-/

namespace SchemaWire

inductive Delimiter where
  | parenthesis
  | bracket
  | brace
  deriving Repr, DecidableEq

inductive Token where
  | word (text : String)
  /-- a punctuation character, which may be joined to the next one -/
  | mark (c : Char) (joint : Bool)
  | literal (text : String)
  | group (delimiter : Delimiter) (tokens : List Token)
  deriving Repr

namespace Token

/-- A group of tokens, the text inside being given. -/
def enclosed (text : String) : Delimiter → String
  | .parenthesis => "(" ++ text ++ ")"
  | .bracket => "[" ++ text ++ "]"
  | .brace => if text.isEmpty then "\x7b \x7d" else "\x7b " ++ text ++ " \x7d"

def isJoint : Token → Bool
  | mark _ joint => joint
  | _ => false

mutual

def text : Token → String
  | word s => s
  | mark c _ => String.ofList [c]
  | literal s => s
  | group d ts => enclosed (textOf ts) d

def textOf : List Token → String
  | [] => ""
  | t :: ts =>
    let gap := if ts.isEmpty || t.isJoint then "" else " "
    text t ++ gap ++ textOf ts

end

/-! ### Short forms -/

def sign (c : Char) : Token := .mark c false

def signs : List Char → List Token
  | [] => []
  | [c] => [.mark c false]
  | c :: cs => .mark c true :: signs cs

def parens (ts : List Token) : Token := .group .parenthesis ts
def brackets (ts : List Token) : Token := .group .bracket ts
def braces (ts : List Token) : Token := .group .brace ts

def colons : List Token := signs [':', ':']
def arrow : List Token := signs ['-', '>']
def fatArrow : List Token := signs ['=', '>']

/-- Names, each after double colons. -/
def path (names : List String) : List Token := names.flatMap fun n => colons ++ [.word n]

def angles (ts : List Token) : List Token := sign '<' :: (ts ++ [sign '>'])

def commas (items : List (List Token)) : List Token := [sign ','].intercalate items

def call (method : String) (arguments : List Token) : List Token :=
  [sign '.', .word method, parens arguments]

/-! ### Literals -/

def startsOctal : List Char → Bool
  | c :: _ => '0' ≤ c && c ≤ '7'
  | [] => false

/-- The characters of a text literal. They are written as in quoted text, except for a zero
character before an octal digit, which takes two hexadecimal digits. -/
def literalChars : List Char → List Char
  | [] => []
  | c :: cs =>
    (if c = '\x00' && startsOctal cs then ['\\', 'x', '0', '0'] else Text.escape c) ++
      literalChars cs

def ofText (s : String) : Token :=
  .literal (String.ofList ('"' :: (literalChars s.toList ++ ['"'])))

/-- A length, in the type of lengths. -/
def ofLength (n : Nat) : Token := .literal (toString n ++ "usize")

end Token

end SchemaWire
