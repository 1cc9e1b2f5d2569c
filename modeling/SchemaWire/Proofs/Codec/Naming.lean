import SchemaWire.Codec.Decode
import SchemaWire.Codec.Encode
import SchemaWire.Proofs.Schema.Inlining

/-!
Display names do not travel. Schemas that differ in them only have the same encoder, the same zero
value and the same reader, so a name in a type expression and the type that it stands for lead to
the same codec, unless the one makes a sequence where the other makes a byte string.
-/

namespace SchemaWire

namespace Schema

/-! ### Codecs of anonymous schemas -/

section Writing

variable {σ : Type} [Sink σ]

theorem write_anonymous (schema : Schema) :
    ((schema.anonymous false).write : Value → Encoder σ Nat) = schema.write := by
  funext value
  induction schema generalizing value with
  | scalar | bytes => simp only [anonymous, write, Bool.false_eq_true, if_false]
  | optional elem ih | array n elem name ih | sequence elem name ih =>
      simp only [anonymous, write, funext ih]
  | map key val name ihkey ihval => simp only [anonymous, write, ihkey, ihval]
  | record name fields ih =>
      have hfields : ∀ values : Fields,
          (writeFields (anonymousFields false fields) values : Encoder σ Nat) =
            writeFields fields values := by
        intro values
        induction fields with
        | nil => rfl
        | cons f fields ihfields =>
            have hrest := ihfields fun g hg => ih g (List.mem_cons_of_mem f hg)
            simp only [anonymousFields, writeFields, ih f List.mem_cons_self, hrest]
      simp only [anonymous, write, hfields]

end Writing

theorem encode_anonymous (schema : Schema) :
    (schema.anonymous false).encode = schema.encode := by
  funext value
  rw [encode, write_anonymous, encode]

theorem isPrefixed_anonymous (schema : Schema) :
    (schema.anonymous false).isPrefixed = schema.isPrefixed := by
  cases schema with
  | scalar kind name => cases kind <;> rfl
  | _ => rfl

theorem zero_anonymous (schema : Schema) : (schema.anonymous false).zero = schema.zero := by
  induction schema with
  | scalar kind name => cases kind <;> rfl
  | optional | sequence | map | bytes => rfl
  | array n elem name ih => simp only [anonymous, zero, ih]
  | record name fields ih =>
      have hfields : zeroFields (anonymousFields false fields) = zeroFields fields := by
        induction fields with
        | nil => rfl
        | cons f fields ihfields =>
            have hrest := ihfields fun g hg => ih g (List.mem_cons_of_mem f hg)
            simp only [anonymousFields, zeroFields, ih f List.mem_cons_self, hrest]
      simp only [anonymous, zero, hfields]

theorem read_anonymous (schema : Schema) (gate : List Constraint) :
    (schema.anonymous false).read gate = schema.read gate := by
  induction schema generalizing gate with
  | scalar kind name => cases kind <;> rfl
  | optional elem ih => simp only [anonymous, read, isPrefixed_anonymous, ih]
  | array n elem name ih | sequence elem name ih => simp only [anonymous, read, ih]
  | map key val name ihkey ihval => simp only [anonymous, read, ihkey, ihval]
  | bytes name => rfl
  | record name fields ih =>
      have hfields : readFields (anonymousFields false fields) = readFields fields := by
        induction fields with
        | nil => rfl
        | cons f fields ihfields =>
            have hrest := ihfields fun g hg => ih g (List.mem_cons_of_mem f hg)
            have htype := ih f List.mem_cons_self
            obtain ⟨name, type, skip, constraints⟩ := f
            simp only [anonymousFields, readFields, readField, zero_anonymous, htype, hrest]
      simp only [anonymous, read, hfields]

namespace SameShape

variable {schema other : Schema} (h : SameShape false schema other)

include h

theorem encode_eq : schema.encode = other.encode := by
  have hanonymous : schema.anonymous false = other.anonymous false := h
  rw [← encode_anonymous, hanonymous, encode_anonymous]

theorem reader_eq : schema.reader = other.reader := by
  have hanonymous : schema.anonymous false = other.anonymous false := h
  rw [reader, ← read_anonymous, hanonymous, read_anonymous, reader]

end SameShape

/-! ### A name and its type -/

/-- Naming a type only labels it. Take a type expression, and put the type that a name stands for in
place of the name; the name is not used by any registered expression. Then both expressions have a
schema or neither has. The schemas are equal without their display names once byte strings are
spelled out as sequences of bytes. They are equal without that, and then encode and decode alike,
unless the name is one for the byte type and the expression has a slice of it. -/
theorem naming_transparent {reg : Registry} {name : String} {named : NamedType}
    (hnamed : reg.resolve? name = some named) (hunused : reg.Unused name) (context : TypeExpr) :
    ((∃ schema, build reg context = .ok schema) ↔
      ∃ schema, build reg (context.inline name named.underlying) = .ok schema) ∧
    ∀ {schema schema'}, build reg context = .ok schema →
      build reg (context.inline name named.underlying) = .ok schema' →
      schema.anonymous true = schema'.anonymous true ∧
      (¬ (named.underlying.isByte = true ∧ context.Slices name) →
        schema.anonymous false = schema'.anonymous false ∧
        (∀ value, schema.encode value = schema'.encode value) ∧
        ∀ input, schema.reader (.start input) = schema'.reader (.start input)) := by
  -- Two successful builds are the ones that are known to be alike.
  have halike : ∀ {spelled : Bool},
      (spelled = false → named.underlying.isByte = true → ¬ context.Slices name) →
      ∀ {schema schema'}, build reg context = .ok schema →
        build reg (context.inline name named.underlying) = .ok schema' →
        schema.SameShape spelled schema' := by
    intro spelled hslices schema schema' hbuild hbuild'
    rcases build_alike hnamed hunused hslices with ⟨s, s', hs, hs', hshape⟩ | ⟨e, _, he, -⟩
    · rw [hbuild] at hs
      rw [hbuild'] at hs'
      cases hs
      cases hs'
      exact hshape
    · cases hbuild.symm.trans he
  have hspelled : true = false → named.underlying.isByte = true → ¬ context.Slices name := nofun
  constructor
  · rcases build_alike hnamed hunused hspelled with ⟨s, s', hs, hs', -⟩ | ⟨e, e', he, he'⟩
    · exact ⟨fun _ => ⟨s', hs'⟩, fun _ => ⟨s, hs⟩⟩
    · constructor
      · rintro ⟨s, hs⟩
        cases hs.symm.trans he
      · rintro ⟨s, hs⟩
        cases hs.symm.trans he'
  · intro schema schema' hbuild hbuild'
    refine ⟨halike hspelled hbuild hbuild', fun hbytes => ?_⟩
    have hshape : schema.SameShape false schema' :=
      halike (fun _ hbyte hslices => hbytes ⟨hbyte, hslices⟩) hbuild hbuild'
    exact ⟨hshape, fun value => congrFun hshape.encode_eq value,
      fun input => congrFun hshape.reader_eq (.start input)⟩

def idRegistry : Registry := Registry.empty.define "Id" (.scalar .string)

def idContext : TypeExpr :=
  .struct
    [⟨"Owner", .pointer (.named "Id"), "minlen=1"⟩,
     ⟨"Grades", .map (.named "Id") (.slice (.scalar (.num .uint8))), ""⟩,
     ⟨"Tags", .slice (.named "Id"), ""⟩,
     ⟨"Last", .named "Id", "-"⟩]

theorem naming_transparent_id :
    idRegistry.resolve? "Id" = some ⟨"Id", .scalar .string⟩ ∧ idRegistry.Unused "Id" ∧
    ∃ schema schema', build idRegistry idContext = .ok schema ∧
      build idRegistry (idContext.inline "Id" (.scalar .string)) = .ok schema' ∧
      schema ≠ schema' ∧ schema.anonymous false = schema'.anonymous false ∧
      (∀ value, schema.encode value = schema'.encode value) ∧
      ∀ input, schema.reader (.start input) = schema'.reader (.start input) := by
  have hnamed : idRegistry.resolve? "Id" = some ⟨"Id", .scalar .string⟩ := rfl
  have hunused : idRegistry.Unused "Id" := List.forall_mem_singleton.mpr List.not_mem_nil
  have hbuilt : ∃ schema, build idRegistry idContext = .ok schema := ⟨_, rfl⟩
  have htransparent := naming_transparent hnamed hunused idContext
  obtain ⟨schema, hschema⟩ := hbuilt
  obtain ⟨schema', hschema'⟩ := htransparent.1.mp ⟨schema, hschema⟩
  have hsame := (htransparent.2 hschema hschema').2 (by simp [TypeExpr.isByte])
  refine ⟨hnamed, hunused, schema, schema', hschema, hschema', ?_, hsame⟩
  cases hschema
  cases hschema'
  nofun

/-- A name for the byte type. -/
def octetRegistry : Registry := Registry.empty.define "Octet" (.scalar (.num .uint8))

/-- A slice of the name is no byte string: it refuses the values that a slice of bytes encodes. -/
theorem octets_are_no_bytes :
    octetRegistry.resolve? "Octet" = some ⟨"Octet", .scalar (.num .uint8)⟩ ∧
    octetRegistry.Unused "Octet" ∧
    ∃ schema schema', build octetRegistry (.slice (.named "Octet")) = .ok schema ∧
      build octetRegistry
        ((TypeExpr.slice (.named "Octet")).inline "Octet" (.scalar (.num .uint8))) = .ok schema' ∧
      schema.anonymous false ≠ schema'.anonymous false ∧
      schema.encode (.bytes [1, 2]) = .error (.mismatch .sequence .bytes) ∧
      schema'.encode (.bytes [1, 2]) = .ok [4, 0, 0, 0, 0, 0, 0, 0, 1, 2] := by
  have hunused : octetRegistry.Unused "Octet" := List.forall_mem_singleton.mpr List.not_mem_nil
  exact ⟨rfl, hunused, _, _, rfl, rfl, nofun, rfl, rfl⟩

end Schema

end SchemaWire
