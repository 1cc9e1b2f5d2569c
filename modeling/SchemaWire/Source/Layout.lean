import SchemaWire.Source.Item
import SchemaWire.Source.Token

/-!
Spelling out emitted source. For every record there is a struct, its default, and the two halves of
its codec; the patterns behind the checks are declared once, before the records. In all of it `rt`
is the path of the runtime.
-/

namespace SchemaWire

open Token

def Identifier.token (id : Identifier) : Token := .word id.text

def Path.tokens (p : Path) : List Token :=
  (if p.absolute then colons else []) ++ colons.intercalate (p.segments.map fun s => [.word s])

namespace SourceType

def numName : NumKind → String
  | .int => "isize"
  | .int8 => "i8"
  | .int16 => "i16"
  | .int32 => "i32"
  | .int64 => "i64"
  | .uint | .uintptr => "usize"
  | .uint8 => "u8"
  | .uint16 => "u16"
  | .uint32 => "u32"
  | .uint64 => "u64"
  | .float32 => "f32"
  | .float64 => "f64"

def tokens (rt : List Token) : SourceType → List Token
  | .scalar .string => path ["std", "string", "String"]
  | .scalar .bool => [.word "bool"]
  | .scalar (.num k) => [.word (numName k)]
  | .optional elem => path ["std", "option", "Option"] ++ angles (elem.tokens rt)
  | .array n elem => [brackets (elem.tokens rt ++ [sign ';', .literal (toString n)])]
  | .sequence elem => path ["std", "vec", "Vec"] ++ angles (elem.tokens rt)
  | .map key value =>
    path ["std", "collections", "HashMap"] ++
      angles (key.tokens rt ++ sign ',' :: value.tokens rt)
  | .bytes => rt ++ path ["conv", "Bytes"]
  | .record name => [name.token]

def zero : SourceType → List Token
  | .array _ elem =>
    path ["std", "array", "from_fn"] ++
      [parens ([sign '|', .word "_", sign '|'] ++ elem.zero)]
  | _ => path ["std", "default", "Default", "default"] ++ [parens []]

end SourceType

/-- A number with its suffix; the sign of a negative one is a token of its own. -/
def signedNumeral (negative : Bool) (magnitude suffix : String) : List Token :=
  (if negative then [sign '-'] else []) ++ [.literal (magnitude ++ suffix)]

def SourceLiteral.tokens : SourceLiteral → List Token
  | .text s => [ofText s]
  | .flag b => [.word (toString b)]
  | .whole n k => signedNumeral (n < 0) (toString n.natAbs) (SourceType.numName k)
  | .float x k =>
    let wide := BinaryFormat.double
    if wide.isNan x.toNat then .word (SourceType.numName k) :: path ["NAN"]
    else if wide.isInfinite x.toNat then
      .word (SourceType.numName k) ::
        path [if wide.isNegative x.toNat then "NEG_INFINITY" else "INFINITY"]
    else
      let bits := if k.format = wide then x.toNat else wide.convert k.format x.toNat
      signedNumeral (k.format.isNegative bits) (k.format.text (k.format.magnitude bits))
        (SourceType.numName k)

namespace TextShape

/-- The name of the static that holds the pattern of a shape. -/
def patternName (shape : TextShape) : String := shape.name.toUpper ++ "_PATTERN"

def parsedAddress : List Token :=
  .word "v" :: sign '.' :: .word "parse" :: colons ++
    angles (path ["std", "net", "IpAddr"]) ++ [parens []]

/-- An address matched against one of its two versions. -/
def addressCase (version binder : String) : List Token :=
  [.word "Ok", parens (path ["std", "net", "IpAddr", version] ++ [parens [.word binder]])]

def tokens (shape : TextShape) : List Token :=
  match shape with
  | .url =>
    path ["url", "Url", "parse"] ++ [parens [.word "v"]] ++
      call "map_or"
        ([.word "false", sign ',', sign '|', .word "u", sign '|', sign '!', .word "u"] ++
          call "scheme" [] ++ call "is_empty" [])
  | .ip => parsedAddress ++ call "is_ok" []
  | .ipv4 =>
    .word "match" :: parsedAddress ++
      [braces
        (addressCase "V4" "_" ++ fatArrow ++ [.word "true", sign ','] ++
          addressCase "V6" "addr" ++ fatArrow ++
          [.word "addr"] ++ call "to_ipv4_mapped" [] ++ call "is_some" [] ++ [sign ','] ++
          [.word "Err", parens [.word "_"]] ++ fatArrow ++ [.word "false", sign ','])]
  | .ipv6 =>
    [.word "matches", sign '!',
     parens
      (parsedAddress ++ [sign ','] ++ addressCase "V6" "addr" ++
        [.word "if", .word "addr"] ++ call "to_ipv4_mapped" [] ++ call "is_none" [])]
  | shape => .word shape.patternName :: call "is_match" [.word "v"]

def declaration (shape : TextShape) : List Token :=
  let pattern := match shape.pattern? with | some p => p.anchored | none => ""
  [.word "static", .word "ref", .word shape.patternName, sign ':'] ++ path ["regex", "Regex"] ++
    [sign '='] ++ path ["regex", "Regex", "new"] ++ [parens [ofText pattern]] ++
    call "expect" [ofText "built-in pattern compiles"] ++ [sign ';']

end TextShape

namespace Condition

def compared (operator : List Char) (l : SourceLiteral) : List Token :=
  sign '*' :: .word "v" :: signs operator ++ l.tokens

/-- The tokens of a condition on `v`, or on the length `len`. -/
def tokens : Condition → List Token
  | .shape s => s.tokens
  | .contains part => .word "v" :: call "contains" [ofText part]
  | .startsWith part => .word "v" :: call "starts_with" [ofText part]
  | .endsWith part => .word "v" :: call "ends_with" [ofText part]
  | .oneOf kind choices =>
    let sought := if kind = some .string then sign '&' :: .word "v" :: call "as_str" []
      else [.word "v"]
    brackets (commas (choices.map SourceLiteral.tokens)) :: call "contains" sought
  | .eq l => compared ['=', '='] l
  | .neq l => compared ['!', '='] l
  | .min l => [sign '!', parens (compared ['<'] l)]
  | .max l => [sign '!', parens (compared ['>'] l)]
  | .minLen n => .word "len" :: signs ['>', '='] ++ [ofLength n]
  | .maxLen n => .word "len" :: signs ['<', '='] ++ [ofLength n]

end Condition

/-- A statement that returns the violation unless the condition holds. -/
def Check.tokens (rt : List Token) (c : Check) : List Token :=
  let violation := rt ++ path ["parse", "DecodeError", "violation"] ++
    [parens [ofText c.field, sign ',', ofText c.description]]
  [.word "if", sign '!', parens c.condition.tokens,
   braces [.word "return", .word "Err", parens violation, sign ';']]

namespace Reading

def expression (rt : List Token) (type : SourceType) (r : Reading) : List Token :=
  if r.gates.isEmpty then
    angles (type.tokens rt ++ .word "as" :: rt ++ path ["conv", "Decode"]) ++ path ["parse"] ++
      [parens [.word "p"], sign '?']
  else
    let reader := if type.isOptional then "parse_gated_opt" else "parse_gated"
    let gate := [sign '|', .word "len", sign '|',
      braces (r.gates.flatMap (Check.tokens rt) ++ [.word "Ok", parens [parens []]])]
    rt ++ path ["conv", reader] ++ colons ++
      angles (commas [type.inner.tokens rt, [.word "_"], [.word "_"]]) ++
      [parens (commas [[.word "p"], gate]), sign '?']

def checking (rt : List Token) (type : SourceType) (holder : Token) (r : Reading) :
    List Token :=
  let checks := r.checks.flatMap (Check.tokens rt)
  if r.checks.isEmpty then []
  else if type.isOptional then
    [.word "if", .word "let"] ++ path ["std", "option", "Option", "Some"] ++
      [parens [.word "v"], sign '=', sign '&', holder, braces checks]
  else
    [braces ([.word "let", .word "v", sign '=', sign '&', holder, sign ';'] ++ checks)]

end Reading

namespace FieldItem

/-- The variable that holds the field of a place while a record is read. -/
def variableAt (place : Nat) : Token := .word ("field" ++ toString place)

def statements (rt : List Token) (f : FieldItem) (place : Nat) : List Token :=
  match f.reading with
  | none => []
  | some r =>
    [.word "let", variableAt place, sign ':'] ++ f.type.tokens rt ++ sign '=' ::
      r.expression rt f.type ++ sign ';' :: r.checking rt f.type (variableAt place)

def set (f : FieldItem) (value : List Token) : List Token := f.name.token :: sign ':' :: value

/-- The field of a place, set to what was read, or to zero if it does not travel. -/
def setRead (f : FieldItem) (place : Nat) : List Token :=
  f.set (if f.reading.isSome then [variableAt place] else f.type.zero)

end FieldItem

namespace RecordItem

def annotated (ts : List Token) : List Token := [sign '#', brackets ts]

def implementation (r : RecordItem) (trait : List Token) (body : List Token) : List Token :=
  .word "impl" :: trait ++ [.word "for", r.name.token, braces body]

def expression (fields : List (List Token)) : List Token := [.word "Self", braces (commas fields)]

def definition (rt : List Token) (r : RecordItem) : List Token :=
  annotated [.word "derive",
    parens (commas [[.word "Debug"], [.word "Clone"], [.word "PartialEq"]])] ++
  annotated [.word "allow", parens [.word "non_snake_case"]] ++
  [.word "pub", .word "struct", r.name.token,
   braces (r.fields.flatMap fun f => .word "pub" :: f.set (f.type.tokens rt) ++ [sign ','])]

def defaultImpl (r : RecordItem) : List Token :=
  r.implementation (path ["std", "default", "Default"])
    ([.word "fn", .word "default", parens []] ++ arrow ++
      [.word "Self", braces (expression (r.fields.map fun f => f.set f.type.zero))])

def encodeImpl (rt : List Token) (r : RecordItem) : List Token :=
  let wire := r.fields.filter fun f => f.reading.isSome
  let write (f : FieldItem) := sign '+' :: rt ++ path ["conv", "Encode", "write_to"] ++
    [parens [sign '&', .word "self", sign '.', f.name.token, sign ',', .word "buf"]]
  r.implementation (rt ++ path ["conv", "Encode"])
    ([.word "fn", .word "write_to"] ++
      angles (.word "U" :: sign ':' :: rt ++ path ["conv", "target", "Target"]) ++
      [parens [sign '&', .word "self", sign ',', .word "buf", sign ':', sign '&', .word "mut",
        .word "U"]] ++
      arrow ++ [.word "usize", braces (.literal "0" :: wire.flatMap write)])

def decodeImpl (rt : List Token) (r : RecordItem) : List Token :=
  let places := r.fields.zipIdx
  r.implementation (rt ++ path ["conv", "Decode"])
    ([.word "fn", .word "parse"] ++
      angles (.word "P" :: sign ':' :: rt ++ path ["parse", "Parser"]) ++
      [parens [.word "p", sign ':', sign '&', .word "mut", .word "P"]] ++ arrow ++
      rt ++ path ["parse", "DecodeResult"] ++ angles [.word "Self"] ++
      [braces (places.flatMap (fun (f, i) => f.statements rt i) ++
        [.word "Ok", parens (expression (places.map fun (f, i) => f.setRead i))])])

def tokens (rt : List Token) (r : RecordItem) : List Token :=
  r.definition rt ++ r.defaultImpl ++ r.encodeImpl rt ++ r.decodeImpl rt

end RecordItem

namespace SourceFile

/-- The statics that hold the patterns, if there are any. -/
def statics (patterns : List TextShape) : List Token :=
  if patterns.isEmpty then []
  else path ["lazy_static", "lazy_static"] ++
    [sign '!', braces (patterns.flatMap TextShape.declaration)]

def tokens (file : SourceFile) : List Token :=
  statics file.patterns ++ file.records.flatMap (RecordItem.tokens file.runtime.tokens)

def text (file : SourceFile) : String := Token.textOf file.tokens

end SourceFile

end SchemaWire
