import SchemaWire.Net.Host

/-!
Absolute addresses of the web: a scheme, and after it what the scheme asks for.

Blanks and controls around the text, and tabs and line breaks inside it, do not count. Under the
web's own schemes any number of slashes leads to an authority, a backslash counting as a slash;
under other schemes two slashes do, and without them the rest is a path, of which nothing is
refused. An authority is user information up to the last at sign, a host, and a port below 65536.
-/

namespace SchemaWire.Url

/-- The text without blanks and controls at its ends and without tabs and line breaks. -/
def strip (cs : List Char) : List Char :=
  let outer := fun c : Char => c.toNat ≤ 32
  let cs := (cs.dropWhile outer).reverse.dropWhile outer |>.reverse
  cs.filter fun c => c ≠ '\t' && c ≠ '\n' && c ≠ '\r'

/-- The scheme before the first colon, in lowercase, and what follows. -/
def scheme? (cs : List Char) : Option (String × List Char) :=
  match Text.splitOnce? ':' cs with
  | some (c :: name, rest) =>
    if c.isAlpha && name.all fun c => c.isAlphanum || c = '+' || c = '-' || c = '.' then
      some (String.ofList ((c :: name).map Char.toLower), rest)
    else none
  | _ => none

def endsAuthority (web : Bool) (c : Char) : Bool :=
  c = '/' || c = '?' || c = '#' || (web && c = '\\')

/-- User information asks for a host: something is left of it besides a first colon that nothing
follows. -/
def namesUser (info : List Char) : Bool := !info.isEmpty && info ≠ [':']

/-- The host of an authority and what follows it. A colon inside brackets belongs to the host. -/
def spanHost (web inBrackets : Bool) : List Char → List Char × List Char
  | [] => ([], [])
  | c :: cs =>
    if endsAuthority web c || (c = ':' && !inBrackets) then ([], c :: cs)
    else
      let inBrackets := if c = '[' then true else if c = ']' then false else inBrackets
      let (host, rest) := spanHost web inBrackets cs
      (c :: host, rest)

def isPort : List Char → Bool
  | ':' :: cs =>
    let (digits, rest) := IpAddress.spanDigits 10 cs
    let ends := match rest with
      | [] => true
      | c :: _ => endsAuthority true c
    IpAddress.ofDigits 10 digits ≤ 65535 && ends
  | _ => true

def isAuthority (web : Bool) (cs : List Char) : Bool :=
  let reach := cs.takeWhile fun c => !endsAuthority web c
  let host := (reach.reverse.takeWhile (· ≠ '@')).reverse
  let info := reach.take (reach.length - host.length - 1)
  let atSign := host.length < reach.length
  let afterInfo := cs.drop (reach.length - host.length)
  let (name, rest) := spanHost web false afterInfo
  let stopsAtOnce := match afterInfo with
    | [] => false
    | c :: _ => endsAuthority web c
  if atSign && info.isEmpty && stopsAtOnce then false
  else if name.isEmpty then !web && !rest.head?.any (· = ':') && !namesUser info
  else (if web then Host.isDomainHost name else Host.isOpaqueHost name) && isPort rest

def isDrive : List Char → Bool
  | [c, ':'] => c.isAlpha
  | [c, '|'] => c.isAlpha
  | _ => false

/-- Whether the part after a file scheme is acceptable: only a host can be at fault. -/
def isFilePath (cs : List Char) : Bool :=
  let slash := fun c : Char => c = '/' || c = '\\'
  match cs with
  | a :: b :: rest =>
    if slash a && slash b then
      let host := rest.takeWhile fun c => !endsAuthority true c
      host.isEmpty || isDrive host || Host.isDomainHost host
    else true
  | _ => true

def accepts (s : String) : Bool :=
  match scheme? (strip s.toList) with
  | none => false
  | some (scheme, rest) =>
    if scheme = "file" then isFilePath rest
    else if ["http", "https", "ws", "wss", "ftp"].contains scheme then
      isAuthority true (rest.dropWhile fun c => c = '/' || c = '\\')
    else match rest with
      | '/' :: '/' :: rest => isAuthority false rest
      | _ => true

end SchemaWire.Url
