import SchemaWire.Proofs.Codec.Reading
import SchemaWire.Proofs.Schema.WellFormed

/-!
The order of the steps in which a field is read: the presence byte, the length, the bounds on it,
the contents, the other constraints. The first step that fails is the one that is reported, and
among constraints of one step the one that was declared first. How bounds and other constraints are
mixed in the declaration makes no difference.
-/

namespace SchemaWire

open Reader Stateful

namespace Schema

/-- Reads what a value has behind its length `n`; a schema without a length prefix is read as it
is. -/
def body (n : Nat) : Schema → Reader Value
  | .scalar .string _ => return .text (← Reader.text n)
  | .sequence elem _ => return .sequence (← times (read [] elem) n)
  | .map key val _ => return .map (EntryTable.ofList (← times (readEntry key val) n)).toList
  | .bytes _ => return .bytes (← take n)
  | schema => read [] schema

variable {schema : Schema} {gate : List Constraint}

theorem read_of_isPrefixed (h : schema.isPrefixed = true) :
    schema.read gate = gatedLength gate >>= fun n => schema.body n := by
  cases schema with
  | scalar k name =>
      cases k with
      | string => rfl
      | bool | num => cases h
  | sequence | map | bytes => rfl
  | optional | array | record => cases h

theorem read_of_not_isPrefixed (hprefixed : schema.isPrefixed = false)
    (hoptional : schema.isOptional = false) : schema.read gate = schema.read [] := by
  cases schema with
  | scalar k name =>
      cases k with
      | string => cases hprefixed
      | bool | num => rfl
  | array | record => rfl
  | sequence | map | bytes => cases hprefixed
  | optional => cases hoptional

end Schema

/-! ### The steps -/

def firstRejecting (checks : List Constraint) (value : Value) : Option Constraint :=
  checks.find? fun k => !k.accepts value

namespace Field

/-- The contents of the field begin at `start`: behind the presence byte if it is optional, and at
once if it is not. -/
def BeginsAt (f : Field Schema) (c start : Cursor) : Prop :=
  if f.type.isOptional then flag c = .ok true start else start = c

def holding (f : Field Schema) (contents : Value) : Value :=
  if f.type.isOptional then .present contents else contents

/-- What is left to be read of the field, by `reader` from `behind` on, once a length is read that
is within all bounds. -/
inductive Remains (f : Field Schema) (c : Cursor) : Reader Value → Cursor → Prop where
  | announced {start behind : Cursor} {n : Nat} :
      f.BeginsAt c start → f.type.inner.isPrefixed = true → length start = .ok n behind →
      firstExcluding f.gates n = none → Remains f c (f.type.inner.body n) behind
  | unannounced {start : Cursor} :
      f.BeginsAt c start → f.type.inner.isPrefixed = false →
      Remains f c (f.type.inner.read []) start

/-- How reading the field ends: each step is reached if all steps before it succeed. -/
inductive Ends (f : Field Schema) (c : Cursor) :
    EStateM.Result DecodeError Cursor Value → Prop where
  | noPresence {e : DecodeError} {c' : Cursor} :
      f.type.isOptional = true → flag c = .error e c' → Ends f c (.error e c')
  /-- no constraint is asked -/
  | absent {c' : Cursor} :
      f.type.isOptional = true → flag c = .ok false c' → Ends f c (.ok .absent c')
  | noLength {start c' : Cursor} {e : DecodeError} :
      f.BeginsAt c start → f.type.inner.isPrefixed = true → length start = .error e c' →
      Ends f c (.error e c')
  /-- reading stops behind the length -/
  | excluded {start behind : Cursor} {n : Nat} {k : Constraint} :
      f.BeginsAt c start → f.type.inner.isPrefixed = true → length start = .ok n behind →
      firstExcluding f.gates n = some k → Ends f c (.error (.violation k) behind)
  | noContents {reader : Reader Value} {behind c' : Cursor} {e : DecodeError} :
      f.Remains c reader behind → reader behind = .error e c' → Ends f c (.error e c')
  | rejected {reader : Reader Value} {behind c' : Cursor} {v : Value} {k : Constraint} :
      f.Remains c reader behind → reader behind = .ok v c' →
      firstRejecting f.checks (f.holding v) = some k → Ends f c (.error (.violation k) c')
  | accepted {reader : Reader Value} {behind c' : Cursor} {v : Value} :
      f.Remains c reader behind → reader behind = .ok v c' →
      firstRejecting f.checks (f.holding v) = none → Ends f c (.ok (f.holding v) c')

variable {f : Field Schema} {c start behind : Cursor} {n : Nat}

/-! ### Reading takes these steps -/

theorem gatedLength_of_not_excluding {gate : List Constraint}
    (hlength : length start = .ok n behind) (hnone : firstExcluding gate n = none) :
    gatedLength gate start = .ok n behind := by
  rw [firstExcluding] at hnone
  rw [gatedLength, bind_of_ok hlength, require, hnone]
  rfl

theorem read_of_beginsAt (h : f.BeginsAt c start) :
    f.type.read f.gates c =
      (f.type.inner.read (if f.type.inner.isPrefixed then f.gates else []) >>= fun v =>
        pure (f.holding v)) start := by
  rw [BeginsAt] at h
  unfold holding
  cases htype : f.type with
  | optional elem =>
      rw [htype] at h
      rw [Schema.read, bind_of_ok h]
      rfl
  | _ =>
      rw [htype] at h
      obtain rfl : start = c := h
      show Schema.read f.gates _ start = (Schema.read _ _ >>= pure) start
      rw [bind_pure]
      split
      · rfl
      · next hprefixed =>
        exact congrFun (Schema.read_of_not_isPrefixed (Bool.eq_false_iff.mpr hprefixed) rfl) start

theorem read_of_remains {reader : Reader Value} (h : f.Remains c reader behind) :
    f.type.read f.gates c = (reader >>= fun v => pure (f.holding v)) behind := by
  cases h with
  | announced hbegins hprefixed hlength hnone =>
      rw [read_of_beginsAt hbegins, if_pos hprefixed, Schema.read_of_isPrefixed hprefixed,
        bind_assoc, bind_of_ok (gatedLength_of_not_excluding hlength hnone)]
  | unannounced hbegins hprefixed =>
      rw [read_of_beginsAt hbegins, if_neg (by simp [hprefixed])]

theorem read_of_remains_of_ok {reader : Reader Value} {v : Value} {c' : Cursor}
    (h : f.Remains c reader behind) (hreader : reader behind = .ok v c') :
    f.type.read f.gates c = .ok (f.holding v) c' := by
  rw [read_of_remains h, bind_of_ok hreader]
  rfl

theorem exists_ends_of_remains {reader : Reader Value} (h : f.Remains c reader behind) :
    ∃ r, f.Ends c r := by
  cases hreader : reader behind with
  | error e c' => exact ⟨_, .noContents h hreader⟩
  | ok v c' =>
      cases hfirst : firstRejecting f.checks (f.holding v) with
      | some k => exact ⟨_, .rejected h hreader hfirst⟩
      | none => exact ⟨_, .accepted h hreader hfirst⟩

theorem exists_ends_of_beginsAt (h : f.BeginsAt c start) : ∃ r, f.Ends c r := by
  cases hprefixed : f.type.inner.isPrefixed with
  | false => exact exists_ends_of_remains (.unannounced h hprefixed)
  | true =>
      cases hlength : length start with
      | error e c' => exact ⟨_, .noLength h hprefixed hlength⟩
      | ok n behind =>
          cases hfirst : firstExcluding f.gates n with
          | some k => exact ⟨_, .excluded h hprefixed hlength hfirst⟩
          | none => exact exists_ends_of_remains (.announced h hprefixed hlength hfirst)

theorem exists_ends (f : Field Schema) (c : Cursor) : ∃ r, f.Ends c r := by
  cases hoptional : f.type.isOptional with
  | false =>
      have hbegins : f.BeginsAt c c := by
        rw [BeginsAt, hoptional]
        rfl
      exact exists_ends_of_beginsAt hbegins
  | true =>
      cases hflag : flag c with
      | error e c' => exact ⟨_, .noPresence hoptional hflag⟩
      | ok present start =>
          cases present with
          | false => exact ⟨_, .absent hoptional hflag⟩
          | true => exact exists_ends_of_beginsAt (by rw [BeginsAt, hoptional]; exact hflag)

end Field

namespace Schema

variable {f : Field Schema} {c start behind c' : Cursor} {e : DecodeError}

theorem readField_of_error (hskip : f.skip = false) (h : f.type.read f.gates c = .error e c') :
    readField f c = .error e c' := by
  rw [readField, if_neg (by simp [hskip])]
  exact bind_of_error h

theorem readField_of_ok (hskip : f.skip = false) {v : Value}
    (h : f.type.read f.gates c = .ok v c') :
    readField f c =
      match firstRejecting f.checks v with
      | some k => .error (.violation k) c'
      | none => .ok v c' := by
  rw [readField, if_neg (by simp [hskip]), ← Field.gates, ← Field.checks, bind_of_ok h, require,
    firstRejecting]
  cases f.checks.find? fun k => !k.accepts v <;> rfl

theorem exists_of_isOptional {schema : Schema} (h : schema.isOptional = true) :
    ∃ elem, schema = optional elem := by
  cases schema with
  | optional elem => exact ⟨elem, rfl⟩
  | _ => cases h

theorem read_of_absent {elem : Schema} {gate : List Constraint} (h : flag c = .ok false c') :
    (optional elem).read gate c = .ok .absent c' := by
  rw [read, bind_of_ok h]
  rfl

theorem firstRejecting_absent (checks : List Constraint) : firstRejecting checks .absent = none :=
  List.find?_eq_none.mpr fun _ _ => Bool.false_ne_true

theorem advance_of_length {n : Nat} (h : length start = .ok n behind) :
    behind = start.advance 8 := by
  obtain ⟨hrest, hoffset⟩ := (length_eq_ok.mp h).2
  rw [Bytes.length_ofLength] at hoffset
  rw [Cursor.advance, ← hoffset, hrest, List.drop_left' (Bytes.length_ofLength n)]

theorem readField_of_ends (hskip : f.skip = false) {r : EStateM.Result DecodeError Cursor Value}
    (h : f.Ends c r) : readField f c = r := by
  cases h with
  | noPresence hoptional hflag =>
      obtain ⟨elem, htype⟩ := exists_of_isOptional hoptional
      refine readField_of_error hskip ?_
      rw [htype]
      exact bind_of_error hflag
  | @absent c' hoptional hflag =>
      obtain ⟨elem, htype⟩ := exists_of_isOptional hoptional
      have hread : f.type.read f.gates c = .ok .absent c' := by
        rw [htype]
        exact read_of_absent hflag
      rw [readField_of_ok hskip hread, firstRejecting_absent]
  | noLength hbegins hprefixed hlength =>
      refine readField_of_error hskip ?_
      rw [Field.read_of_beginsAt hbegins, read_of_isPrefixed hprefixed, if_pos hprefixed]
      exact bind_of_error (bind_of_error (bind_of_error hlength))
  | excluded hbegins hprefixed hlength hfirst =>
      refine readField_of_error hskip ?_
      rw [Field.read_of_beginsAt hbegins, if_pos hprefixed]
      exact bind_of_error (read_of_excluding hprefixed hlength hfirst)
  | noContents hremains hreader =>
      refine readField_of_error hskip ?_
      rw [Field.read_of_remains hremains]
      exact bind_of_error hreader
  | rejected hremains hreader hfirst =>
      rw [readField_of_ok hskip (Field.read_of_remains_of_ok hremains hreader), hfirst]
  | accepted hremains hreader hfirst =>
      rw [readField_of_ok hskip (Field.read_of_remains_of_ok hremains hreader), hfirst]

/-- Reading a field of a schema of the builder that travels ends with the first step that fails, or
with the value if none does. A bound on its length that the prefix does not meet is reported, with
the cursor right behind the eight bytes of the prefix, whatever comes after them and whatever other
constraints there are. -/
theorem readField_eq_iff_ends {schema : Schema} (hbuildable : schema.Buildable)
    {name : Option String} {fields : FieldList} (hrecord : record name fields ∈ schema.parts)
    (hf : f ∈ fields) (hskip : f.skip = false) :
    (∀ {c r}, readField f c = r ↔ f.Ends c r) ∧
    (∀ k ∈ f.constraints, k.boundsLength = true → f.type.inner.isPrefixed = true ∧
      ∀ {c start behind n}, f.BeginsAt c start → length start = .ok n behind →
        k.rule.admitsLength n = false →
        ∃ first, firstExcluding f.gates n = some first ∧
          readField f c = .error (.violation first) behind ∧ behind = start.advance 8) := by
  have hwell : FieldList.WellFormed fields := hbuildable.wellFormed _ hrecord
  constructor
  · intro c r
    refine ⟨fun h => ?_, readField_of_ends hskip⟩
    obtain ⟨r', hends⟩ := f.exists_ends c
    rwa [← h, readField_of_ends hskip hends]
  · intro k hk hbounds
    refine ⟨(hwell.fits f hf k hk).prefixed hbounds, fun hbegins hlength hexcluded => ?_⟩
    obtain ⟨first, hfirst, hread⟩ := hwell.gated f hf k hk hbounds hbegins hlength hexcluded
    exact ⟨first, hfirst, hread, advance_of_length hlength⟩

/-- An optional code with a check that is declared before the bounds on its length. -/
def codeField : Field Schema :=
  ⟨"Code", .optional (.scalar .string none), false,
    [⟨"Code", .startsWith "a", true⟩, ⟨"Code", .minLen 2, true⟩, ⟨"Code", .maxLen 3, true⟩]⟩

/-- A code that is absent, one of nine bytes of which there is one, one of three bytes of which
there are two, and one of two letters of which the first is wrong. -/
theorem readField_eq_iff_ends_code :
    (record none [codeField]).Buildable ∧
    readField codeField (.start [0, 7]) = .ok .absent ⟨1, [7]⟩ ∧
    readField codeField (.start (1 :: Bytes.ofLength 9 ++ [255])) =
      .error (.violation ⟨"Code", .maxLen 3, true⟩) ⟨9, [255]⟩ ∧
    readField codeField (.start (1 :: Bytes.ofLength 3 ++ [98, 99])) =
      .error (.unexpectedEnd 9 3 2) ⟨9, [98, 99]⟩ ∧
    readField codeField (.start (1 :: Bytes.ofLength 2 ++ [98, 99])) =
      .error (.violation ⟨"Code", .startsWith "a", true⟩) ⟨11, []⟩ := by
  have hbuildable : (record none [codeField]).Buildable :=
    ⟨.empty, .inl ⟨.struct [⟨"Code", .pointer (.scalar .string), "startswith=a,minlen=2,maxlen=3"⟩],
      rfl⟩⟩
  obtain ⟨hends, hbounds⟩ := readField_eq_iff_ends hbuildable (f := codeField)
    (List.mem_cons_self) (List.mem_cons_self) rfl
  have hmark (bs : Bytes) : codeField.BeginsAt (.start (1 :: bs)) ⟨1, bs⟩ := rfl
  have hlong : length ⟨1, Bytes.ofLength 9 ++ [255]⟩ = .ok 9 ⟨9, [255]⟩ := rfl
  obtain ⟨first, hfirst, hexcluded, -⟩ := (hbounds ⟨"Code", .maxLen 3, true⟩ (by decide) rfl).2
    (hmark _) hlong rfl
  have htext : Reader.text 2 ⟨9, [98, 99]⟩ = .ok "bc" ⟨11, []⟩ :=
    text_eq_ok.mpr ⟨by decide, by decide, by decide⟩
  refine ⟨hbuildable, hends.mpr (.absent rfl rfl), ?_, ?_, ?_⟩
  · obtain rfl : ⟨"Code", .maxLen 3, true⟩ = first := Option.some_inj.mp hfirst
    exact hexcluded
  · exact hends.mpr (.noContents (.announced (hmark _) rfl (n := 3) rfl rfl) rfl)
  · have hremains :=
      Field.Remains.announced (hmark (Bytes.ofLength 2 ++ [98, 99])) rfl (n := 2) rfl rfl
    exact hends.mpr (.rejected hremains (v := .text "bc") (bind_of_ok htext) rfl)

end Schema

end SchemaWire
