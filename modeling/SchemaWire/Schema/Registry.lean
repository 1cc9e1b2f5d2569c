import SchemaWire.Schema.TypeExpr

/-!
Registries of named types. A name is registered with the expression behind it and with the display
name that schemas expanded from it carry; registering a name again replaces what it stood for.
-/

namespace SchemaWire

structure NamedType where
  display : String
  underlying : TypeExpr
  deriving Repr

/-- Named types, each name once, in order of first registration. -/
structure Registry where
  entries : List (String × NamedType)
  deriving Repr

namespace Registry

def empty : Registry := ⟨[]⟩

def names (reg : Registry) : List String := reg.entries.map (·.1)

def size (reg : Registry) : Nat := reg.entries.length

def lookup (name : String) : List (String × NamedType) → Option NamedType
  | [] => none
  | (n, t) :: entries => if n = name then some t else lookup name entries

def set (name : String) (type : NamedType) :
    List (String × NamedType) → List (String × NamedType)
  | [] => [(name, type)]
  | (n, t) :: entries => if n = name then (n, type) :: entries else (n, t) :: set name type entries

def resolve? (reg : Registry) (name : String) : Option NamedType := lookup name reg.entries

/-- Registers a name under a display name of its own choice. -/
def insert (reg : Registry) (name display : String) (underlying : TypeExpr) : Registry :=
  ⟨set name ⟨display, underlying⟩ reg.entries⟩

/-- Registers a name that displays as itself. -/
def define (reg : Registry) (name : String) (underlying : TypeExpr) : Registry :=
  reg.insert name name underlying

end Registry

end SchemaWire
