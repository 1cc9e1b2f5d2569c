import SchemaWire.Constraint.Literal

/-!
Identifiers and paths of emitted source. Only ASCII identifiers are emitted. A name that is a
keyword becomes a raw identifier, except for the few keywords that have no raw form.

What has no valid name is one of the reasons why no source can be emitted for a record.
-/

namespace SchemaWire

/-! ### Failures -/

inductive EmitError where
  /-- the field holds a record that has no name -/
  | anonymousRecord (field : String)
  | invalidIdentifier (name : String)
  | invalidRuntime (path : String)
  /-- a map is keyed by floats, which cannot be hashed -/
  | unhashableKey (type : String)
  /-- the literal is no value of the scalar kind, if there is one -/
  | literal (field : String) (literal : Literal) (kind : Option Kind)
  deriving Repr, DecidableEq

def EmitError.message : EmitError → String
  | .anonymousRecord field =>
    "field '" ++ field ++ "' holds an anonymous record, which has no Rust type name"
  | .invalidIdentifier name => "'" ++ name ++ "' cannot be used as a Rust identifier"
  | .invalidRuntime path => "'" ++ path ++ "' is not a valid runtime path"
  | .unhashableKey type => "map key type " ++ type ++ " does not implement Hash"
  | .literal field l kind =>
    "constraint literal " ++ l.toText ++ " on field '" ++ field ++
      "' does not fit type " ++ (match kind with | some k => k.name | none => "non-scalar")

/-! ### Names -/

structure Identifier where
  name : String
  /-- marks a keyword that is used as a name -/
  raw : Bool
  deriving Repr, DecidableEq

namespace Identifier

def keywords : List String :=
  ["abstract", "as", "async", "await", "become", "box", "break", "const", "continue", "do",
   "dyn", "else", "enum", "extern", "false", "final", "fn", "for", "if", "impl", "in", "let",
   "loop", "macro", "match", "mod", "move", "mut", "override", "priv", "pub", "ref", "return",
   "static", "struct", "trait", "true", "try", "type", "typeof", "unsafe", "unsized", "use",
   "virtual", "where", "while", "yield"]

/-- Names that are reserved even in raw form. -/
def reserved : List String := ["self", "Self", "super", "crate", "_"]

def isHead (c : Char) : Bool := c = '_' || c.isAlpha

def isTail (c : Char) : Bool := c = '_' || c.isAlphanum

def isWellFormed : List Char → Bool
  | [] => false
  | c :: cs => isHead c && cs.all isTail

def ofName (name : String) : Except EmitError Identifier :=
  if !isWellFormed name.toList || reserved.contains name then .error (.invalidIdentifier name)
  else .ok ⟨name, keywords.contains name⟩

def text (id : Identifier) : String := if id.raw then "r#" ++ id.name else id.name

end Identifier

/-- A path; an absolute one starts at the root of all packages. -/
structure Path where
  absolute : Bool
  segments : List String
  deriving Repr, DecidableEq

namespace Path

def pieces : List Char → List (List Char)
  | [] => [[]]
  | ':' :: ':' :: cs => [] :: pieces cs
  | c :: cs =>
    match pieces cs with
    | [] => [[c]]
    | piece :: rest => (c :: piece) :: rest

/-- Whether a piece of a path can name a package or a module. -/
def isSegment (piece : List Char) : Bool := Identifier.isWellFormed piece && piece ≠ ['_']

def parse (text : String) : Except EmitError Path :=
  let (absolute, rest) : Bool × List Char := match text.toList with
    | ':' :: ':' :: rest => (true, rest)
    | rest => (false, rest)
  let segments := pieces rest
  if segments.all isSegment then .ok ⟨absolute, segments.map String.ofList⟩
  else .error (.invalidRuntime text)

end Path

end SchemaWire
