import SchemaWire.Proofs.Source.Layout

/-!
Which structs emitted source defines.

A struct is defined where its name stands behind two words, one for its visibility and one for what
it is. Apart from the struct of a record, nothing that is laid out for it defines one, whatever
stands behind it: no identifier is a keyword, and in a path the words do not touch. So the structs
that source defines are those of its records, in order.
-/

namespace SchemaWire

namespace Token

/-! ### Definitions -/

/-- The struct whose definition the tokens begin with. -/
def defined? : List Token → Option String
  | .word visibility :: .word keyword :: .word name :: _ =>
    if visibility = "pub" ∧ keyword = "struct" then some name else none
  | _ => none

mutual

/-- The structs that are defined among the tokens, at whatever depth, in order. -/
def definitions : List Token → List String
  | [] => []
  | t :: ts => (defined? (t :: ts)).toList ++ (definitionsIn t ++ definitions ts)

def definitionsIn : Token → List String
  | .group _ ts => definitions ts
  | _ => []

end

variable {a b inner ts : List Token} {w name : String}

@[simp] theorem definitions_nil : definitions [] = [] := rfl

@[simp] theorem definitions_mark {c : Char} {joint : Bool} :
    definitions (.mark c joint :: ts) = definitions ts := rfl

@[simp] theorem definitions_literal {l : String} :
    definitions (.literal l :: ts) = definitions ts := rfl

@[simp] theorem definitions_sign {c : Char} : definitions (sign c :: ts) = definitions ts := rfl

@[simp] theorem definitions_ofText {s : String} :
    definitions (ofText s :: ts) = definitions ts := rfl

@[simp] theorem definitions_parens :
    definitions (parens inner :: ts) = definitions inner ++ definitions ts := rfl

@[simp] theorem definitions_brackets :
    definitions (brackets inner :: ts) = definitions inner ++ definitions ts := rfl

@[simp] theorem definitions_braces :
    definitions (braces inner :: ts) = definitions inner ++ definitions ts := rfl

@[simp] theorem definitions_colons : definitions (colons ++ ts) = definitions ts := rfl

@[simp] theorem definitions_arrow : definitions (arrow ++ ts) = definitions ts := rfl

@[simp] theorem definitions_fatArrow : definitions (fatArrow ++ ts) = definitions ts := rfl

@[simp] theorem definitions_word (h : w ≠ "pub") :
    definitions (.word w :: ts) = definitions ts := by
  have hnone : defined? (.word w :: ts) = none := by
    unfold defined?
    split
    · next heq =>
      cases heq
      exact if_neg fun hpub => h hpub.1
    · rfl
  rw [definitions, hnone]
  rfl

theorem definitions_word_colons : definitions (.word w :: (colons ++ ts)) = definitions ts := rfl

theorem definitions_pub_word (h : w ≠ "struct") :
    definitions (.word "pub" :: .word w :: ts) = definitions (.word w :: ts) := by
  have hnone : defined? (.word "pub" :: .word w :: ts) = none := by
    cases ts with
    | nil => rfl
    | cons t ts => cases t <;> simp [defined?, h]
  rw [definitions, hnone]
  rfl

theorem definitions_struct (h : name ≠ "pub") :
    definitions (.word "pub" :: .word "struct" :: .word name :: ts) = name :: definitions ts := by
  have hrest : definitions (.word "struct" :: .word name :: ts) = definitions ts := by
    simp [h]
  rw [definitions, hrest]
  rfl

@[simp] theorem definitions_path_append {names : List String} (h : "pub" ∉ names) :
    definitions (path names ++ ts) = definitions ts := by
  induction names with
  | nil => rfl
  | cons name names ih =>
      rw [List.mem_cons, not_or] at h
      rw [path, List.flatMap_cons, ← path]
      simp [Ne.symm h.1, ih h.2]

/-! ### Silence -/

/-- The tokens define nothing, whatever stands behind them. -/
def Silent (ts : List Token) : Prop := ∀ rest, definitions (ts ++ rest) = definitions rest

theorem Silent.definitions_eq (h : Silent ts) : definitions ts = [] := by
  simpa using h []

theorem silent_nil : Silent [] := fun _ => rfl

theorem Silent.append (ha : Silent a) (hb : Silent b) : Silent (a ++ b) := by
  intro rest
  rw [List.append_assoc, ha, hb]

theorem Silent.flatMap {α : Type} {f : α → List Token} {items : List α}
    (h : ∀ x ∈ items, Silent (f x)) : Silent (items.flatMap f) := by
  induction items with
  | nil => exact silent_nil
  | cons x items ih =>
      rw [List.flatMap_cons]
      exact (h x List.mem_cons_self).append (ih fun y hy => h y (List.mem_cons_of_mem x hy))

theorem Silent.commas {items : List (List Token)} (h : ∀ item ∈ items, Silent item) :
    Silent (commas items) := by
  have hcomma : Silent [sign ','] := fun _ => rfl
  unfold Token.commas
  induction items with
  | nil => exact silent_nil
  | cons item items ih =>
      cases items with
      | nil => simpa using h
      | cons next items =>
          have hrest := ih fun x hx => h x (List.mem_cons_of_mem item hx)
          rw [List.intercalate_cons_cons]
          exact ((h item List.mem_cons_self).append hcomma).append hrest

/-- The tokens define nothing if a path goes on behind them. -/
def Leads (rt : List Token) : Prop :=
  ∀ rest, definitions (rt ++ (colons ++ rest)) = definitions rest

namespace Leads

variable {rt : List Token} {names : List String}

theorem definitions_path_append (h : Leads rt) (hnames : "pub" ∉ name :: names) :
    definitions (rt ++ (path (name :: names) ++ ts)) = definitions ts := by
  rw [path, List.flatMap_cons, ← path, List.append_assoc, List.append_assoc, h]
  rw [List.mem_cons, not_or] at hnames
  simp [Ne.symm hnames.1, hnames.2]

end Leads

end Token

open Token

variable {rt : List Token}

namespace Path

/-- A runtime path may have any names: they do not touch. -/
theorem leads_tokens {p : Path} (hne : p.segments ≠ []) : Leads p.tokens := by
  obtain ⟨absolute, names⟩ := p
  obtain ⟨name, names, rfl⟩ := List.exists_cons_of_ne_nil hne
  have hnames : ∀ name rest, definitions (.word name :: (path names ++ (colons ++ rest))) =
      definitions rest := by
    clear hne
    induction names with
    | nil => exact fun name rest => definitions_word_colons
    | cons next names ih =>
        intro name rest
        rw [path, List.flatMap_cons, ← path]
        exact ih next rest
  intro rest
  rw [tokens, intercalate_words]
  cases absolute <;> exact hnames name rest

end Path

namespace Identifier

/-- An identifier is not spelled like a keyword. -/
def Plain (id : Identifier) : Prop := id.text ∉ keywords

variable {id : Identifier} {ts : List Token}

theorem Plain.ne_pub (h : id.Plain) : id.text ≠ "pub" := fun heq => h (heq ▸ by decide)

theorem Plain.definitions_token (h : id.Plain) : definitions (id.token :: ts) = definitions ts :=
  definitions_word h.ne_pub

theorem Plain.definitions_pub_token (h : id.Plain) :
    definitions (.word "pub" :: id.token :: ts) = definitions ts := by
  have hkeyword : id.text ≠ "struct" := fun heq => h (heq ▸ by decide)
  exact (definitions_pub_word hkeyword).trans h.definitions_token

theorem Plain.definitions_struct (h : id.Plain) :
    definitions (.word "pub" :: .word "struct" :: id.token :: ts) = id.text :: definitions ts :=
  Token.definitions_struct h.ne_pub

end Identifier

namespace SourceType

def names : SourceType → List Identifier
  | .optional elem | .array _ elem | .sequence elem => elem.names
  | .map key value => key.names ++ value.names
  | .record name => [name]
  | .scalar _ | .bytes => []

theorem numName_ne_pub (k : NumKind) : numName k ≠ "pub" := by
  cases k <;> decide

theorem silent_tokens (hrt : Leads rt) {type : SourceType} (h : ∀ id ∈ type.names, id.Plain) :
    Silent (type.tokens rt) := by
  induction type with
  | scalar kind =>
      intro rest
      cases kind <;> simp [tokens, numName_ne_pub]
  | optional elem ih | sequence elem ih | array n elem ih =>
      intro rest
      simp [tokens, angles, ih h _]
  | map key value ihkey ihvalue =>
      have hkey := ihkey fun id hid => h id (List.mem_append_left _ hid)
      have hvalue := ihvalue fun id hid => h id (List.mem_append_right _ hid)
      intro rest
      simp [tokens, angles, hkey _, hvalue _]
  | bytes =>
      intro rest
      simp [tokens, hrt.definitions_path_append]
  | record name =>
      exact fun rest => (h name List.mem_cons_self).definitions_token

theorem silent_zero (type : SourceType) : Silent type.zero := by
  induction type with
  | array n elem ih =>
      intro rest
      simp [zero, ih.definitions_eq]
  | _ =>
      intro rest
      simp [zero]

theorem names_inner (type : SourceType) : type.inner.names = type.names := by
  cases type <;> rfl

end SourceType

theorem SourceLiteral.silent_tokens (l : SourceLiteral) : Silent l.tokens := by
  have hnumeral : ∀ negative magnitude suffix,
      Silent (signedNumeral negative magnitude suffix) := by
    intro negative magnitude suffix rest
    cases negative <;> simp [signedNumeral]
  have hconstant : ∀ k name, name ≠ "pub" →
      Silent (.word (SourceType.numName k) :: path [name]) := by
    intro k name hname rest
    simp [SourceType.numName_ne_pub, Ne.symm hname]
  cases l with
  | text s => exact fun rest => rfl
  | flag b =>
      have hword : toString b ≠ "pub" := by cases b <;> decide
      exact fun rest => definitions_word hword
  | whole n k => exact hnumeral _ _ _
  | float x k =>
      rw [tokens]
      split
      · exact hconstant _ _ (by decide)
      · split
        · split
          · exact hconstant _ _ (by decide)
          · exact hconstant _ _ (by decide)
        · exact hnumeral _ _ _

namespace TextShape

theorem patternName_ne_pub (shape : TextShape) : shape.patternName ≠ "pub" := by
  intro h
  have hlength : shape.patternName.length = 3 := by rw [h]; rfl
  rw [patternName, String.length_append] at hlength
  have hsuffix : "_PATTERN".length = 8 := rfl
  omega

theorem silent_tokens (shape : TextShape) : Silent shape.tokens := by
  intro rest
  cases shape with
  | url => simp [tokens, call]
  | ip | ipv4 | ipv6 => simp [tokens, parsedAddress, addressCase, angles, call]
  | _ => simp [tokens, call, patternName_ne_pub]

theorem silent_declaration (shape : TextShape) : Silent shape.declaration := by
  intro rest
  simp [declaration, call, patternName_ne_pub]

end TextShape

theorem Condition.silent_tokens (c : Condition) : Silent c.tokens := by
  have hcompared : ∀ operator ∈ [['=', '='], ['!', '='], ['<'], ['>']], ∀ l : SourceLiteral,
      Silent (compared operator l) := by
    intro operator hoperator l rest
    have hl := l.silent_tokens
    simp only [List.mem_cons, List.not_mem_nil, or_false] at hoperator
    rcases hoperator with rfl | rfl | rfl | rfl <;> simp [compared, signs, hl _]
  cases c with
  | shape s => exact s.silent_tokens
  | oneOf kind choices =>
      have hchoices : Silent (commas (choices.map SourceLiteral.tokens)) := by
        refine .commas fun item hitem => ?_
        obtain ⟨l, -, rfl⟩ := List.mem_map.mp hitem
        exact l.silent_tokens
      intro rest
      rw [tokens]
      split <;> simp [call, hchoices.definitions_eq]
  | eq l | neq l => exact hcompared _ (by simp) l
  | min l | max l =>
      intro rest
      simp [tokens, (hcompared _ _ l).definitions_eq]
  | minLen n | maxLen n =>
      intro rest
      simp [tokens, signs, ofLength]
  | _ =>
      intro rest
      simp [tokens, call]

theorem Check.silent_tokens (hrt : Leads rt) (c : Check) : Silent (c.tokens rt) := by
  intro rest
  simp [tokens, hrt.definitions_path_append, c.condition.silent_tokens.definitions_eq]

theorem FieldItem.definitions_variableAt {place : Nat} {ts : List Token} :
    definitions (variableAt place :: ts) = definitions ts := by
  refine definitions_word fun h => ?_
  have hlength : ("field" ++ toString place).length = 3 := by rw [h]; rfl
  rw [String.length_append] at hlength
  have hprefix : "field".length = 5 := rfl
  omega

namespace Reading

variable {type : SourceType}

theorem silent_expression (hrt : Leads rt) (h : ∀ id ∈ type.names, id.Plain) (r : Reading) :
    Silent (r.expression rt type) := by
  have htype := type.silent_tokens hrt h
  have hinner : Silent (type.inner.tokens rt) :=
    type.inner.silent_tokens hrt (by rwa [type.names_inner])
  have hgates : Silent (r.gates.flatMap (Check.tokens rt)) :=
    .flatMap fun c _ => c.silent_tokens hrt
  have hreader : "pub" ≠ if type.isOptional then "parse_gated_opt" else "parse_gated" := by
    split <;> decide
  intro rest
  rw [expression]
  split
  · simp [angles, htype _, hrt.definitions_path_append]
  · simp [angles, commas, List.intercalate_cons_cons, hrt.definitions_path_append, hreader,
      hinner _, hgates _]

theorem silent_checking (hrt : Leads rt) (type : SourceType) (place : Nat) (r : Reading) :
    Silent (r.checking rt type (FieldItem.variableAt place)) := by
  have hchecks : Silent (r.checks.flatMap (Check.tokens rt)) :=
    .flatMap fun c _ => c.silent_tokens hrt
  intro rest
  rw [checking]
  split
  · rfl
  · split <;> simp [FieldItem.definitions_variableAt, hchecks.definitions_eq]

end Reading

namespace FieldItem

def Plain (f : FieldItem) : Prop := f.name.Plain ∧ ∀ id ∈ f.type.names, id.Plain

variable {f : FieldItem}

theorem silent_statements (hrt : Leads rt) (h : f.Plain) (place : Nat) :
    Silent (f.statements rt place) := by
  have htype := f.type.silent_tokens hrt h.2
  rw [statements]
  split
  · exact silent_nil
  · next r hr =>
    have hexpression := r.silent_expression hrt h.2
    have hchecking := r.silent_checking hrt f.type place
    intro rest
    simp [definitions_variableAt, htype _, hexpression _, hchecking _]

theorem silent_setRead (h : f.Plain) (place : Nat) : Silent (f.setRead place) := by
  intro rest
  rw [setRead, set]
  split
  · simp [h.1.definitions_token, definitions_variableAt]
  · simp [h.1.definitions_token, f.type.silent_zero _]

end FieldItem

namespace RecordItem

def Plain (r : RecordItem) : Prop := r.name.Plain ∧ ∀ f ∈ r.fields, f.Plain

variable {r : RecordItem}

theorem definitions_definition (hrt : Leads rt) (h : r.Plain) (rest : List Token) :
    definitions (r.definition rt ++ rest) = r.name.text :: definitions rest := by
  have hfields : Silent
      (r.fields.flatMap fun f => .word "pub" :: (f.set (f.type.tokens rt) ++ [sign ','])) := by
    refine .flatMap fun f hf rest => ?_
    have htype := f.type.silent_tokens hrt (h.2 f hf).2
    simp [FieldItem.set, (h.2 f hf).1.definitions_pub_token, htype _]
  simp [definition, annotated, commas, List.intercalate_cons_cons, h.1.definitions_struct,
    hfields.definitions_eq]

theorem silent_defaultImpl (h : r.Plain) : Silent r.defaultImpl := by
  have hfields : Silent (commas (r.fields.map fun f => f.set f.type.zero)) := by
    refine .commas fun item hitem rest => ?_
    obtain ⟨f, hf, rfl⟩ := List.mem_map.mp hitem
    simp [FieldItem.set, (h.2 f hf).1.definitions_token, f.type.silent_zero _]
  intro rest
  simp [defaultImpl, implementation, expression, h.1.definitions_token, hfields.definitions_eq]

theorem silent_encodeImpl (hrt : Leads rt) (h : r.Plain) : Silent (r.encodeImpl rt) := by
  have hwrites : Silent ((r.fields.filter fun f => f.reading.isSome).flatMap fun f =>
      sign '+' :: (rt ++ (path ["conv", "Encode", "write_to"] ++
        [parens [sign '&', .word "self", sign '.', f.name.token, sign ',', .word "buf"]]))) := by
    refine .flatMap fun f hf rest => ?_
    have hname := (h.2 f (List.mem_filter.mp hf).1).1
    simp [hname.definitions_token, hrt.definitions_path_append]
  intro rest
  simp [encodeImpl, implementation, angles, h.1.definitions_token, hrt.definitions_path_append,
    hwrites.definitions_eq]

theorem silent_decodeImpl (hrt : Leads rt) (h : r.Plain) : Silent (r.decodeImpl rt) := by
  have hplain : ∀ place ∈ r.fields.zipIdx, place.1.Plain :=
    fun place hplace => h.2 place.1 (List.fst_mem_of_mem_zipIdx hplace)
  have hstatements : Silent
      (r.fields.zipIdx.flatMap fun place => place.1.statements rt place.2) :=
    .flatMap fun place hplace => place.1.silent_statements hrt (hplain place hplace) place.2
  have hfields : Silent (commas (r.fields.zipIdx.map fun place => place.1.setRead place.2)) := by
    refine .commas fun item hitem => ?_
    obtain ⟨place, hplace, rfl⟩ := List.mem_map.mp hitem
    exact place.1.silent_setRead (hplain place hplace) place.2
  intro rest
  simp [decodeImpl, implementation, expression, angles, h.1.definitions_token,
    hrt.definitions_path_append, hstatements _, hfields.definitions_eq]

theorem definitions_tokens (hrt : Leads rt) (h : r.Plain) (rest : List Token) :
    definitions (r.tokens rt ++ rest) = r.name.text :: definitions rest := by
  rw [tokens, List.append_assoc, List.append_assoc, List.append_assoc,
    definitions_definition hrt h, silent_defaultImpl h, silent_encodeImpl hrt h,
    silent_decodeImpl hrt h]

end RecordItem

namespace SourceFile

theorem silent_statics (patterns : List TextShape) : Silent (statics patterns) := by
  have hdeclarations : Silent (patterns.flatMap TextShape.declaration) :=
    .flatMap fun shape _ => shape.silent_declaration
  intro rest
  rw [statics]
  split
  · rfl
  · simp [hdeclarations.definitions_eq]

/-- The structs that source defines are those of its records, in order. -/
theorem definitions_tokens {file : SourceFile} (hne : file.runtime.segments ≠ [])
    (h : ∀ r ∈ file.records, r.Plain) :
    definitions file.tokens = file.records.map (·.name.text) := by
  have hrt : Leads file.runtime.tokens := Path.leads_tokens hne
  rw [tokens, silent_statics]
  revert h
  induction file.records with
  | nil => exact fun _ => rfl
  | cons r records ih =>
      intro h
      rw [List.flatMap_cons, r.definitions_tokens hrt (h r List.mem_cons_self), List.map_cons,
        ih fun x hx => h x (List.mem_cons_of_mem r hx)]

end SourceFile

end SchemaWire
