/-!
Texts of internet addresses.

Four octets are decimal, separated by dots, without leading zeros. Eight groups are hexadecimal,
at most four digits each, separated by colons; one run of two colons may stand for the zero groups
that are missing, and the last two groups may be written as four octets.
-/

namespace SchemaWire

/-- An internet address, most significant part first. -/
inductive IpAddress where
  | v4 (octets : List Nat)
  | v6 (groups : List Nat)
  deriving Repr, DecidableEq

namespace IpAddress

def hexValue? (c : Char) : Option Nat :=
  if '0' ≤ c && c ≤ '9' then some (c.toNat - 48)
  else if 'a' ≤ c && c ≤ 'f' then some (c.toNat - 87)
  else if 'A' ≤ c && c ≤ 'F' then some (c.toNat - 55)
  else none

/-- The digits at the head of a text that are below `base`, and the rest. -/
def spanDigits (base : Nat) : List Char → List Nat × List Char
  | [] => ([], [])
  | c :: cs =>
    match (hexValue? c).filter (· < base) with
    | some d => let (ds, rest) := spanDigits base cs; (d :: ds, rest)
    | none => ([], c :: cs)

def ofDigits (base : Nat) (ds : List Nat) : Nat := ds.foldl (fun n d => base * n + d) 0

/-- One of four octets: at most three digits, no leading zero, below 256. -/
def octet? (cs : List Char) : Option (Nat × List Char) :=
  let (ds, rest) := spanDigits 10 cs
  let n := ofDigits 10 ds
  if ds.isEmpty || 3 < ds.length || 255 < n || (1 < ds.length && ds.head? = some 0) then none
  else some (n, rest)

/-- `count` more octets, each after a dot. -/
def octetsAfter? : Nat → List Char → Option (List Nat × List Char)
  | 0, cs => some ([], cs)
  | count + 1, '.' :: cs => do
    let (n, rest) ← octet? cs
    let (ns, rest) ← octetsAfter? count rest
    some (n :: ns, rest)
  | _ + 1, _ => none

def dotted? (cs : List Char) : Option (List Nat × List Char) := do
  let (n, rest) ← octet? cs
  let (ns, rest) ← octetsAfter? 3 rest
  some (n :: ns, rest)

/-- One group: one to four hexadecimal digits. -/
def group? (cs : List Char) : Option (Nat × List Char) :=
  let (ds, rest) := spanDigits 16 cs
  if ds.isEmpty || 4 < ds.length then none else some (ofDigits 16 ds, rest)

/-- The text after a colon; the first group of a run needs none. -/
def pastColon? (first : Bool) : List Char → Option (List Char)
  | ':' :: cs => if first then some (':' :: cs) else some cs
  | cs => if first then some cs else none

/-- Groups read one after the other, whether the last two of them came as octets, and the rest. -/
structure Run where
  groups : List Nat
  dotted : Bool
  rest : List Char
  deriving Repr, DecidableEq

/-- The longest run of at most `limit` groups. Octets end it, and need room for two groups. -/
def run (first : Bool) : Nat → List Char → Run
  | 0, cs => ⟨[], false, cs⟩
  | limit + 1, cs =>
    match (pastColon? first cs).bind dotted?, limit with
    | some ([a, b, c, d], rest), _ + 1 => ⟨[256 * a + b, 256 * c + d], true, rest⟩
    | _, _ =>
      match (pastColon? first cs).bind group? with
      | some (g, rest) =>
        let more := run false limit rest
        { more with groups := g :: more.groups }
      | none => ⟨[], false, cs⟩

/-- Eight groups at the head of a text, the ones that two colons stand for filled in. -/
def grouped? (cs : List Char) : Option (List Nat × List Char) :=
  let head := run true 8 cs
  if head.groups.length = 8 then some (head.groups, head.rest)
  else if head.dotted then none
  else match head.rest with
    | ':' :: ':' :: rest =>
      let tail := run true (7 - head.groups.length) rest
      let zeros := List.replicate (8 - head.groups.length - tail.groups.length) 0
      some (head.groups ++ zeros ++ tail.groups, tail.rest)
    | _ => none

def parse? (s : String) : Option IpAddress :=
  match dotted? s.toList with
  | some (octets, rest) => if rest.isEmpty then some (.v4 octets) else none
  | none =>
    match grouped? s.toList with
    | some (groups, []) => some (.v6 groups)
    | _ => none

/-- An address of four octets, or one of eight groups that stands for such an address. -/
def isV4 : IpAddress → Bool
  | .v4 _ => true
  | .v6 [0, 0, 0, 0, 0, 0xFFFF, _, _] => true
  | .v6 _ => false

/-- An address of eight groups that stands for itself. -/
def isV6 (a : IpAddress) : Bool := !a.isV4

end IpAddress

end SchemaWire
