import SchemaWire.Schema.Compiled
import SchemaWire.Source.Identifier

/-!
What emitted source says, before it is spelled out: records with typed fields, how each field is
read, and what is checked of it. Everything that can go wrong in emitting goes wrong in building
these, so spelling them out cannot fail.
-/

namespace SchemaWire

inductive SourceType where
  | scalar (kind : Kind)
  | optional (elem : SourceType)
  | array (length : Nat) (elem : SourceType)
  | sequence (elem : SourceType)
  | map (key value : SourceType)
  | bytes
  | record (name : Identifier)
  deriving Repr, DecidableEq

namespace SourceType

def ofSchema : Schema → Except EmitError SourceType
  | .scalar k _ => return .scalar k
  | .optional elem => return .optional (← ofSchema elem)
  | .array n elem _ => return .array n (← ofSchema elem)
  | .sequence elem _ => return .sequence (← ofSchema elem)
  | .map key value _ => return .map (← ofSchema key) (← ofSchema value)
  | .bytes _ => return .bytes
  | .record name _ => return .record (← Identifier.ofName (name.getD ""))

def inner : SourceType → SourceType
  | .optional elem => elem
  | t => t

def isOptional : SourceType → Bool
  | .optional _ => true
  | _ => false

end SourceType

inductive SourceLiteral where
  | text (value : String)
  | flag (value : Bool)
  | whole (value : Int) (kind : NumKind)
  | float (pattern : BitVec 64) (kind : NumKind)
  deriving Repr, DecidableEq

/-- The literal that a constraint on `field` compares values of a kind with. -/
def SourceLiteral.ofLiteral (field : String) (kind : Option Kind) (l : Literal) :
    Except EmitError SourceLiteral :=
  match kind, l with
  | some .string, .text s => .ok (.text s)
  | some .bool, .flag b => .ok (.flag b)
  | some (.num k), .signed n =>
    if k.sort = .signed && Literal.fitsSigned k.bits n then .ok (.whole n k)
    else .error (.literal field l kind)
  | some (.num k), .unsigned n =>
    if k.sort = .unsigned && Literal.fitsUnsigned k.bits n then .ok (.whole n k)
    else .error (.literal field l kind)
  | some (.num k), .float x =>
    if k.sort = .float then .ok (.float x k) else .error (.literal field l kind)
  | _, _ => .error (.literal field l kind)

/-- What is asked of a field, or of the contents of an optional one. -/
inductive Condition where
  | shape (shape : TextShape)
  | contains (part : String)
  | startsWith (part : String)
  | endsWith (part : String)
  | oneOf (kind : Option Kind) (choices : List SourceLiteral)
  | eq (literal : SourceLiteral)
  | neq (literal : SourceLiteral)
  | min (literal : SourceLiteral)
  | max (literal : SourceLiteral)
  | minLen (length : Nat)
  | maxLen (length : Nat)
  deriving Repr, DecidableEq

def Condition.ofRule (field : String) (kind : Option Kind) (rule : Rule) :
    Except EmitError Condition :=
  let literal := SourceLiteral.ofLiteral field kind
  match rule with
  | .shape s => .ok (.shape s)
  | .contains part => .ok (.contains part)
  | .startsWith part => .ok (.startsWith part)
  | .endsWith part => .ok (.endsWith part)
  | .oneOf choices => do return .oneOf kind (← choices.mapM literal)
  | .eq l => do return .eq (← literal l)
  | .neq l => do return .neq (← literal l)
  | .min l => do return .min (← literal l)
  | .max l => do return .max (← literal l)
  | .minLen n => .ok (.minLen n)
  | .maxLen n => .ok (.maxLen n)

structure Check where
  field : String
  description : String
  condition : Condition
  deriving Repr, DecidableEq

def Check.ofConstraint (kind : Option Kind) (c : Constraint) : Except EmitError Check :=
  return ⟨c.field, c.description, ← Condition.ofRule c.field kind c.rule⟩

/-- How a field is read: what is checked of its length, and what of its value. -/
structure Reading where
  gates : List Check
  checks : List Check
  deriving Repr, DecidableEq

def Reading.ofField (f : Field Schema) : Except EmitError Reading := do
  let check := Check.ofConstraint f.type.inner.scalarKind?
  return ⟨← f.gates.mapM check, ← f.checks.mapM check⟩

/-- A field of an emitted record; one without a reading never travels. -/
structure FieldItem where
  name : Identifier
  type : SourceType
  reading : Option Reading
  deriving Repr, DecidableEq

structure RecordItem where
  name : Identifier
  fields : List FieldItem
  deriving Repr, DecidableEq

/-- The item of a record. All names and types are settled before the first check is. -/
def RecordItem.ofFields (name : String) (fields : FieldList) : Except EmitError RecordItem := do
  let name ← Identifier.ofName name
  let heads ← fields.mapM fun f => do
    return (f, ← Identifier.ofName f.name, ← SourceType.ofSchema f.type)
  let items ← heads.mapM fun (f, name, type) => do
    if f.skip then return ⟨name, type, none⟩
    else return ⟨name, type, some (← Reading.ofField f)⟩
  return ⟨name, items⟩

abbrev NamedFields := String × FieldList

/-- Collecting records to emit, each name once, in the order in which they are met. -/
abbrev Collector := StateT (List NamedFields) (Except EmitError)

namespace Collector

mutual

def visit (field : String) : Schema → Collector Unit
  | .scalar .. | .bytes _ => return
  | .optional elem | .array _ elem _ | .sequence elem _ => visit field elem
  | .map key value _ =>
    if key.inner.scalarKind?.any Kind.isFloat then throw (.unhashableKey key.text)
    else do
      visit field key
      visit field value
  | .record none _ => throw (.anonymousRecord field)
  | .record (some name) fields => do
    let collected ← get
    if collected.any fun r => r.1 = name then return
    else do
      set (collected ++ [(name, fields)])
      visitFields fields

def visitFields : List (Field Schema) → Collector Unit
  | [] => return
  | ⟨name, type, _, _⟩ :: fields => do
    visit name type
    visitFields fields

end

/-- A record and the records inside it, skipped fields included. -/
def records (name : String) (fields : FieldList) : Except EmitError (List NamedFields) := do
  let (_, collected) ← (visitFields fields).run [(name, fields)]
  return collected

end Collector

/-- Emitted source: the path of the runtime, the shapes whose patterns it declares, and its
records. -/
structure SourceFile where
  runtime : Path
  patterns : List TextShape
  records : List RecordItem
  deriving Repr, DecidableEq

/-- The source for a compiled record, written against the runtime at a path. -/
def SourceFile.ofRecord (record : CompiledRecord) (runtime : String) :
    Except EmitError SourceFile := do
  let runtime ← Path.parse runtime
  let records ← Collector.records (record.display.getD record.name) record.fields
  return ⟨runtime, record.patterns, ← records.mapM fun r => RecordItem.ofFields r.1 r.2⟩

end SchemaWire
