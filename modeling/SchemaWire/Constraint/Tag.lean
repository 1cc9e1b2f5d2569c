import SchemaWire.Constraint.Table
import SchemaWire.Text.Split

/-!
Field tags: entries between commas, each the name of a constraint, a name and an argument around
an equals sign, or a dash, which skips the field. Blanks around entries, names and arguments do not
count, and neither do empty entries.

Names are looked up here, and whether an argument is there is settled; what it says is read once
the type of the field is known.
-/

namespace SchemaWire

structure Declaration where
  name : String
  argument : Option String
  deriving Repr, DecidableEq

/-- What a tag says: whether to skip the field, and its constraints in order. -/
structure Tag where
  skip : Bool
  declarations : List Declaration
  deriving Repr, DecidableEq

namespace Tag

def empty : Tag := ⟨false, []⟩

/-- The entries of a raw tag that are not empty. -/
def entries (raw : List Char) : List (List Char) :=
  ((Text.splitAt ',' raw).map Text.trim).filter (!·.isEmpty)

def splitEntry (entry : List Char) : List Char × Option (List Char) :=
  match Text.splitOnce? '=' entry with
  | some (name, argument) => (Text.trim name, some (Text.trim argument))
  | none => (entry, none)

def declaration (entry : List Char) : Except ConstraintError Declaration :=
  let (name, argument) := splitEntry entry
  let name := String.ofList name
  match RuleKind.named? name with
  | none => .error (.unknown name)
  | some kind =>
    match kind.takesArgument, argument with
    | true, none => .error (.missingArgument name)
    | true, some [] => .error (.missingArgument name)
    | true, some argument => .ok ⟨name, some (String.ofList argument)⟩
    | false, none => .ok ⟨name, none⟩
    | false, some _ => .error (.unexpectedArgument name)

/-- What a list of entries says; the first entry at fault decides. -/
def ofEntries : List (List Char) → Except ConstraintError Tag
  | [] => .ok empty
  | entry :: rest =>
    if entry = ['-'] then do
      let tag ← ofEntries rest
      return { tag with skip := true }
    else do
      let declaration ← declaration entry
      let tag ← ofEntries rest
      return { tag with declarations := declaration :: tag.declarations }

def parse (raw : String) : Except ConstraintError Tag := ofEntries (entries raw.toList)

end Tag

end SchemaWire
