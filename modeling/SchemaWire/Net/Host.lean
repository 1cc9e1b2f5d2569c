import SchemaWire.Bytes
import SchemaWire.Text.Split
import SchemaWire.Text.Utf8
import SchemaWire.Net.Ip
import SchemaWire.Net.Label

/-!
Host names in addresses of the web.

A host in brackets is an internet address of eight groups. Where the scheme is one of the web's own
the host is otherwise a domain: percent signs are resolved, the characters are folded and composed,
each label must be in order, and a name whose last label is a number must be an address of four
octets, in decimal, octal or hexadecimal parts. Under any other scheme the host is opaque and only a
few characters are refused.
-/

namespace SchemaWire.Host

-- Powers in this file are the core library's.
attribute [local instance (high)] instPowNat

/-! ### Numbers as domains -/

/-- A part of a numeric domain: hexadecimal after `0x`, octal after `0`, decimal otherwise. A mark
without digits is zero. -/
def numberPart? (cs : List Char) : Option Nat :=
  let (base, digits) :=
    match cs with
    | '0' :: 'x' :: rest => (16, rest)
    | '0' :: 'X' :: rest => (16, rest)
    | '0' :: c :: rest => (8, c :: rest)
    | cs => (10, cs)
  if cs.isEmpty then none
  else match IpAddress.spanDigits base digits with
    | (ds, []) => some (IpAddress.ofDigits base ds)
    | _ => none

/-- The labels of a domain without the empty one that a full stop at the end adds. -/
def withoutRoot (labels : List (List Char)) : List (List Char) :=
  if labels.getLast? = some [] then labels.dropLast else labels

def endsInNumber (labels : List (List Char)) : Bool :=
  match labels.getLast? with
  | none => false
  | some last =>
    (!last.isEmpty && last.all fun c => '0' ≤ c && c ≤ '9') || (numberPart? last).isSome

/-- Whether a numeric domain is an address: at most four numbers, all but the last one octets, the
last one filling the octets that remain. -/
def isNumericAddress (labels : List (List Char)) : Bool :=
  match labels.mapM numberPart? with
  | none => false
  | some numbers =>
    match numbers.reverse with
    | [] => false
    | last :: front =>
      numbers.length ≤ 4 && front.all (· < 256) && last < 256 ^ (4 - front.length)

/-! ### Domains -/

def hexPair? (a b : Char) : Option UInt8 := do
  let x ← IpAddress.hexValue? a
  let y ← IpAddress.hexValue? b
  some (UInt8.ofNat (16 * x + y))

def percentDecoded : List Char → Bytes
  | [] => []
  | '%' :: a :: b :: cs =>
    match hexPair? a b with
    | some byte => byte :: percentDecoded cs
    | none => Text.utf8 "%" ++ percentDecoded (a :: b :: cs)
  | c :: cs => Text.utf8 (String.singleton c) ++ percentDecoded cs

def labels? (cs : List Char) : Option (List (List Char)) :=
  match Text.ofUtf8 (percentDecoded cs) with
  | .error _ => none
  | .ok s =>
    let folded := Text.composed (s.toList.flatMap Label.fold)
    ((Text.splitAt '.' folded).mapM Label.text?).filter Label.areSound

/-! ### Hosts -/

def bracketed? (cs : List Char) : Option (List Char) :=
  match cs with
  | '[' :: rest => if rest.getLast? = some ']' then some rest.dropLast else some []
  | _ => none

def isGrouped (cs : List Char) : Bool :=
  match IpAddress.grouped? cs with
  | some (_, []) => true
  | _ => false

def isDomainHost (cs : List Char) : Bool :=
  match bracketed? cs with
  | some inside => isGrouped inside
  | none =>
    match labels? cs with
    | none => false
    | some labels =>
      let named := withoutRoot labels
      labels ≠ [[]] && (!endsInNumber named || isNumericAddress named)

def refusedInOpaque : List Char := "\x00\t\n\r #/:<>?@[\\]^|".toList

def isOpaqueHost (cs : List Char) : Bool :=
  match bracketed? cs with
  | some inside => isGrouped inside
  | none => cs.all fun c => !refusedInOpaque.contains c

end SchemaWire.Host
