import SchemaWire.Net.Url
import SchemaWire.Shape.Pattern

/-!
The shapes that a text can be required to have, with their names in tags, the failures that they
report, and the patterns behind seven of them. The other four are recognised by the parsers of
addresses.
-/

namespace SchemaWire

inductive TextShape where
  | alpha
  | alphanumeric
  | numeric
  | hexadecimal
  | email
  | url
  | base64
  | uuid
  | ip
  | ipv4
  | ipv6
  deriving Repr, DecidableEq

namespace TextShape

def all : List TextShape :=
  [.alpha, .alphanumeric, .numeric, .hexadecimal, .email, .url, .base64, .uuid, .ip, .ipv4, .ipv6]

def name : TextShape → String
  | .alpha => "alpha"
  | .alphanumeric => "alphanum"
  | .numeric => "numeric"
  | .hexadecimal => "hexadecimal"
  | .email => "email"
  | .url => "url"
  | .base64 => "base64"
  | .uuid => "uuid"
  | .ip => "ip"
  | .ipv4 => "ipv4"
  | .ipv6 => "ipv6"

def failure : TextShape → String
  | .alpha => "contains non alpha characters"
  | .alphanumeric => "contains non alphanumeric characters"
  | .numeric => "contains non numeric characters"
  | .hexadecimal => "is not a valid hexadecimal string"
  | .email => "is not a valid email"
  | .url => "is not a valid URL"
  | .base64 => "is not a valid base64 string"
  | .uuid => "is not a valid UUID"
  | .ip => "is not a valid IP address"
  | .ipv4 => "is not a valid IPv4"
  | .ipv6 => "is not a valid IPv6"

/-! ### Patterns -/

def plain (c : Char) : CharSet := .one ⟨.plain, c⟩

def between (lo hi : Char) : CharSet := .range ⟨.plain, lo⟩ ⟨.plain, hi⟩

/-- A control or quoting character, spelled by its number. -/
def code (n : Nat) : CharSet := .one ⟨.short, Char.ofNat n⟩

def codes (lo hi : Nat) : CharSet := .range ⟨.short, Char.ofNat lo⟩ ⟨.short, Char.ofNat hi⟩

def inOrder (p : Pattern) : List Pattern → Pattern
  | [] => p
  | q :: rest => .seq p (inOrder q rest)

def oneOf (p : Pattern) : List Pattern → Pattern
  | [] => p
  | q :: rest => .alt p (oneOf q rest)

def alphaPattern : Pattern := .star (.set .letters)

def alphanumericPattern : Pattern := .star (.anyOf [.letters, .numerals])

def numericPattern : Pattern := .star (.set .numerals)

def hexadecimalPattern : Pattern :=
  .plus (.anyOf [between '0' '9', between 'a' 'f', between 'A' 'F'])

def base64Digit : Pattern :=
  .anyOf [between 'A' 'Z', between 'a' 'z', between '0' '9', plain '+', plain '/']

/-- Groups of four digits; the last group may end in one or two equals signs. -/
def base64Pattern : Pattern :=
  .seq (.star (.group (.times base64Digit 4)))
    (.group (oneOf
      (inOrder (.times base64Digit 2) [.set (plain '='), .set (plain '=')])
      [.seq (.times base64Digit 3) (.set (plain '=')), .times base64Digit 4]))

def uuidBlock (n : Nat) : Pattern := .times (.anyOf [between '0' '9', between 'a' 'f']) n

def uuidPattern : Pattern :=
  inOrder (uuidBlock 8)
    [.set (plain '-'), uuidBlock 4, .set (plain '-'), uuidBlock 4, .set (plain '-'), uuidBlock 4,
     .set (plain '-'), uuidBlock 12]

/-- Characters beyond ASCII that an address may hold: no surrogates, private use or
noncharacters. -/
def emailWide : Pattern :=
  let range (lo hi : Nat) : CharSet := .range ⟨.long, Char.ofNat lo⟩ ⟨.long, Char.ofNat hi⟩
  .anyOf [range 0xA0 0xD7FF, range 0xF900 0xFDCF, range 0xFDF0 0xFFEF]

def emailLetter : Pattern := .anyOf [between 'a' 'z', between 'A' 'Z']

/-- A run of the characters that stand in an address without quotes. -/
def emailAtom : Pattern :=
  let signs : List CharSet :=
    (['!', '#', '$', '%', '&', '\'', '*', '+'].map plain) ++ [.one ⟨.escaped, '-'⟩] ++
      (['/', '=', '?'].map plain) ++ [.one ⟨.escaped, '^'⟩] ++
      (['_', '\x60', '\x7b', '|', '\x7d', '~'].map plain)
  .plus (.group (oneOf emailLetter [.set .digits, .anyOf signs, emailWide]))

/-- Blanks, possibly after a line break and the blanks before it. -/
def emailBlanks : Pattern :=
  let blank : Pattern := .group (.alt (.set (code 0x20)) (.set (code 0x09)))
  .group (.seq
    (.opt (.group (.seq (.star blank) (.group (.seq (.set (code 0x0D)) (.set (code 0x0A)))))))
    (.plus blank))

def emailQuoted : Pattern :=
  let bare : Pattern := .group (oneOf
    (.anyOf [codes 0x01 0x08, code 0x0B, code 0x0C, codes 0x0E 0x1F, code 0x7F])
    [.set (code 0x21), .anyOf [codes 0x23 0x5B], .anyOf [codes 0x5D 0x7E], emailWide])
  let any : Pattern := .group (.group (.alt
    (.anyOf [codes 0x01 0x09, code 0x0B, code 0x0C, codes 0x0D 0x7F]) emailWide))
  let mark : Pattern := .group (.set (code 0x22))
  .group (inOrder mark
    [.star (.group (.seq (.opt emailBlanks) (.group (.alt bare any)))), .opt emailBlanks, mark])

/-- A label of the domain whose ends are `outer` and whose middle may hold more. -/
def emailLabel (outer : Pattern) : Pattern :=
  let middle : Pattern := .group (oneOf emailLetter
    [.set .digits, .set (plain '-'), .set (.one ⟨.escaped, '.'⟩), .set (plain '~'), emailWide])
  .group (.alt (.group outer) (.group (inOrder (.group outer) [.star middle, .group outer])))

def emailPattern : Pattern :=
  let dot : Pattern := .set (.one ⟨.escaped, '.'⟩)
  let dotted : Pattern := .group (.seq emailAtom (.star (.group (.seq dot emailAtom))))
  inOrder (.group (.group (.alt dotted emailQuoted)))
    [.set (plain '@'),
     .plus (.group (.seq (emailLabel (oneOf emailLetter [.set .digits, emailWide])) dot)),
     emailLabel (oneOf emailLetter [emailWide]),
     .opt dot]

def pattern? : TextShape → Option Pattern
  | .alpha => some alphaPattern
  | .alphanumeric => some alphanumericPattern
  | .numeric => some numericPattern
  | .hexadecimal => some hexadecimalPattern
  | .email => some emailPattern
  | .base64 => some base64Pattern
  | .uuid => some uuidPattern
  | .url | .ip | .ipv4 | .ipv6 => none

/-! ### Deciding -/

def accepts (shape : TextShape) (s : String) : Bool :=
  match shape with
  | .alpha => alphaPattern.accepts s
  | .alphanumeric => alphanumericPattern.accepts s
  | .numeric => numericPattern.accepts s
  | .hexadecimal => hexadecimalPattern.accepts s
  | .email => emailPattern.accepts s
  | .base64 => base64Pattern.accepts s
  | .uuid => uuidPattern.accepts s
  | .url => Url.accepts s
  | .ip => (IpAddress.parse? s).isSome
  | .ipv4 => (IpAddress.parse? s).any IpAddress.isV4
  | .ipv6 => (IpAddress.parse? s).any IpAddress.isV6

end TextShape

end SchemaWire
