import SchemaWire.Scalar.Kind

/-!
Type expressions: types as the declarations of a program describe them, before names are resolved.
They cover shapes that have no wire form, so that these can be named when they are refused.
-/

namespace SchemaWire

inductive UnsupportedShape where
  | channel
  | function
  | interface
  | complex64
  | complex128
  | unsafePointer
  deriving Repr, DecidableEq

def UnsupportedShape.text : UnsupportedShape → String
  | .channel => "channel"
  | .function => "function"
  | .interface => "interface"
  | .complex64 => "complex64"
  | .complex128 => "complex128"
  | .unsafePointer => "unsafe pointer"

/-- A declared field over the type of its type expression, with its raw tag. -/
structure FieldDecl (τ : Type) where
  name : String
  type : τ
  tag : String
  deriving Repr, DecidableEq

inductive TypeExpr where
  | named (name : String)
  | scalar (kind : Kind)
  | pointer (elem : TypeExpr)
  | array (length : Nat) (elem : TypeExpr)
  | slice (elem : TypeExpr)
  | map (key value : TypeExpr)
  | struct (fields : List (FieldDecl TypeExpr))
  /-- a shape without a wire form; a channel's element does not matter -/
  | unsupported (shape : UnsupportedShape)
  deriving Repr

namespace TypeExpr

instance : Inhabited TypeExpr := ⟨.struct []⟩

/-- Whether a slice of this type is a byte string. Only the byte type itself makes one, not a name
for it. -/
def isByte : TypeExpr → Bool
  | scalar (.num .uint8) => true
  | _ => false

end TypeExpr

end SchemaWire
