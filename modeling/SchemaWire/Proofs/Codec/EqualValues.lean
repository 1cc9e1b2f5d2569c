import SchemaWire.Proofs.Codec.RoundTrip
import SchemaWire.Proofs.Value.Equivalence

/-!
Encoding respects equality of values. Equal values have encodings both or neither, and the two are
made of the same bytes: fields are written in the order of the schema whatever their order in the
value, and the entries of a map in their own order, so parts of one encoding may have changed places
in the other. What is read back from the two is equal again, provided that the keys of maps come
back as they are.
-/

namespace SchemaWire

namespace Value

/-! ### Equal well-formed values -/

structure Same (a b : Value) : Prop where
  left : a.WellFormed
  right : b.WellFormed
  beq : (a == b) = true

theorem forall₂_with {α β : Type} {R : α → β → Prop} {P : α → Prop} {Q : β → Prop} {as : List α}
    {bs : List β} (h : List.Forall₂ R as bs) (has : ∀ a ∈ as, P a) (hbs : ∀ b ∈ bs, Q b) :
    List.Forall₂ (fun a b => P a ∧ Q b ∧ R a b) as bs :=
  (List.forall₂_and_left _ _).mpr ⟨has, ((List.forall₂_and_left _ _).mpr ⟨hbs, h.flip⟩).flip⟩

namespace Same

variable {b : Value}

theorem eq_of_isLeaf {a : Value} (h : Same a b) (hleaf : a.isLeaf = true) : b = a :=
  eq_of_beq_leaf hleaf h.beq

theorem of_present {inner : Value} (h : Same (.present inner) b) :
    ∃ inner', b = .present inner' ∧ Same inner inner' := by
  obtain ⟨ha, hb, heq⟩ := h
  cases b with
  | present inner' => exact ⟨inner', rfl, ha.parts, hb.parts, heq⟩
  | _ => cases heq

theorem of_array {items : List Value} (h : Same (.array items) b) :
    ∃ items', b = .array items' ∧ List.Forall₂ Same items items' := by
  obtain ⟨ha, hb, heq⟩ := h
  cases b with
  | array items' =>
      have hitems := forall₂_with (beq_array_iff.mp heq) ha.parts hb.parts
      exact ⟨items', rfl, hitems.imp fun _ _ h => ⟨h.1, h.2.1, h.2.2⟩⟩
  | _ => cases heq

theorem of_sequence {items : List Value} (h : Same (.sequence items) b) :
    ∃ items', b = .sequence items' ∧ List.Forall₂ Same items items' := by
  obtain ⟨ha, hb, heq⟩ := h
  cases b with
  | sequence items' =>
      have hitems := forall₂_with (beq_sequence_iff.mp heq) ha.parts hb.parts
      exact ⟨items', rfl, hitems.imp fun _ _ h => ⟨h.1, h.2.1, h.2.2⟩⟩
  | _ => cases heq

/-- The entries of the other map can be rearranged so that they are the same one by one. -/
theorem of_map {entries : Entries} (h : Same (.map entries) b) :
    ∃ entries' aligned : Entries, b = .map entries' ∧ aligned.Perm entries' ∧
      List.Forall₂ (fun x y => Same x.1 y.1 ∧ Same x.2 y.2) entries aligned := by
  obtain ⟨ha, hb, heq⟩ := h
  cases b with
  | map entries' =>
      obtain ⟨aligned, hperm, haligned⟩ := (equates_wellFormed.map_iff ha.parts hb.parts).mp heq
      have hentries : ∀ y ∈ aligned, y.1.WellFormed ∧ y.2.WellFormed :=
        fun y hy => hb.parts.2 y (hperm.subset hy)
      refine ⟨entries', aligned, rfl, hperm, (forall₂_with haligned ha.parts.2 hentries).imp ?_⟩
      rintro x y ⟨hx, hy, hkey, hvalue⟩
      exact ⟨⟨hx.1, hy.1, hkey⟩, hx.2, hy.2, hvalue⟩
  | _ => cases heq

theorem of_record {fields : Fields} (h : Same (.record fields) b) :
    ∃ fields' : Fields, b = .record fields' ∧ ∀ name v, fields.get? name = some v →
      ∃ w, fields'.get? name = some w ∧ Same v w := by
  obtain ⟨ha, hb, heq⟩ := h
  cases b with
  | record fields' =>
      refine ⟨fields', rfl, fun name v hv => ?_⟩
      have hmem := Fields.mem_of_get? hv
      obtain ⟨w, hw, hwv⟩ := (beq_record_iff.mp heq).2 _ hmem
      have hvalue : v.WellFormed := ha.parts.2 _ hmem
      have hvalue' : w.WellFormed := hb.parts.2 _ (Fields.mem_of_get? hw)
      exact ⟨w, hw, hvalue, hvalue', equates_wellFormed.symm hvalue' hvalue hwv⟩
  | _ => cases heq

end Same

end Value

/-! ### Encodings of equal values -/

/-- If the first emission is complete, then so is the second, with the same bytes in some order. -/
def Emission.Shuffles (first second : Emission) : Prop :=
  ∀ bs, first = .done bs → ∃ bs', second = .done bs' ∧ bs'.Perm bs

namespace Emission.Shuffles

theorem refl (emission : Emission) : emission.Shuffles emission := fun bs h => ⟨bs, h, .refl bs⟩

theorem trans {first second third : Emission} (h : first.Shuffles second)
    (h' : second.Shuffles third) : first.Shuffles third := by
  intro bs hbs
  obtain ⟨mid, hmid, hperm⟩ := h bs hbs
  obtain ⟨bs', hbs', hperm'⟩ := h' mid hmid
  exact ⟨bs', hbs', hperm'.trans hperm⟩

theorem andThen {first second first' second' : Emission} (h : first.Shuffles first')
    (h' : second.Shuffles second') : (first.andThen second).Shuffles (first'.andThen second') := by
  intro bs hbs
  obtain ⟨front, back, hfront, hback, rfl⟩ := andThen_eq_done.mp hbs
  obtain ⟨front', hfront', hperm⟩ := h front hfront
  obtain ⟨back', hback', hperm'⟩ := h' back hback
  exact ⟨front' ++ back', andThen_eq_done.mpr ⟨front', back', hfront', hback', rfl⟩,
    hperm.append hperm'⟩

variable {α : Type} {emission : α → Emission} {as bs : List α}

theorem each {R : α → α → Prop} (hR : ∀ a b, R a b → (emission a).Shuffles (emission b))
    (h : List.Forall₂ R as bs) :
    (Emission.each emission as).Shuffles (Emission.each emission bs) := by
  induction h with
  | nil => exact refl _
  | cons hab _ ih => exact (hR _ _ hab).andThen ih

theorem each_perm (h : as.Perm bs) :
    (Emission.each emission as).Shuffles (Emission.each emission bs) := by
  induction h with
  | nil => exact refl _
  | cons a _ ih => exact (refl (emission a)).andThen ih
  | swap a b rest =>
      intro out hout
      obtain ⟨first, _, hfirst, hrest, rfl⟩ := andThen_eq_done.mp hout
      obtain ⟨second, back, hsecond, hback, rfl⟩ := andThen_eq_done.mp hrest
      have hback' := andThen_eq_done.mpr ⟨first, back, hfirst, hback, rfl⟩
      exact ⟨_, andThen_eq_done.mpr ⟨second, _, hsecond, hback', rfl⟩,
        List.perm_append_comm_assoc second first back⟩
  | trans _ _ ih ih' => exact ih.trans ih'

end Emission.Shuffles

namespace Schema

open Value

theorem isLeaf_of_emit_scalar {kind : Kind} {name : Option String} {a : Value} {bs : Bytes}
    (h : emit (.scalar kind name) a = .done bs) : a.isLeaf = true := by
  have hform : a.form = .scalar kind := form_of_emit h
  cases a with
  | text | flag | num => rfl
  | _ => cases hform

theorem shuffles_emitFields {fields : FieldList} {values values' : Fields}
    (htypes : ∀ f ∈ fields, ∀ {a b}, Same a b → (f.type.emit a).Shuffles (f.type.emit b))
    (hsame : ∀ name v, values.get? name = some v → ∃ w, values'.get? name = some w ∧ Same v w) :
    (emitFields fields values).Shuffles (emitFields fields values') := by
  induction fields with
  | nil => exact .refl _
  | cons f fields ih =>
      obtain ⟨htype, htypes⟩ := List.forall_mem_cons.mp htypes
      have ih := ih htypes
      cases hskip : f.skip with
      | true =>
          rw [emitFields_of_skip hskip, emitFields_of_skip hskip]
          exact ih
      | false =>
          intro bs hbs
          obtain ⟨v, -, -, hv, -⟩ := (emitFields_eq_done hskip).mp hbs
          obtain ⟨w, hw, hvw⟩ := hsame f.name v hv
          rw [emitFields_of_get? hskip hv] at hbs
          rw [emitFields_of_get? hskip hw]
          exact (htype hvw).andThen ih bs hbs

/-- Where a value has an encoding, an equal one has an encoding of the same bytes in some order. -/
theorem shuffles_emit (schema : Schema) {a b : Value} (h : Same a b) :
    (schema.emit a).Shuffles (schema.emit b) := by
  induction schema generalizing a b with
  | scalar kind name =>
      intro bs hbs
      obtain rfl := h.eq_of_isLeaf (isLeaf_of_emit_scalar hbs)
      exact ⟨bs, hbs, .refl bs⟩
  | optional elem ih =>
      intro bs hbs
      rcases emit_optional_eq_done.mp hbs with ⟨rfl, rfl⟩ | ⟨inner, back, rfl, hback, rfl⟩
      · obtain rfl := h.eq_of_isLeaf rfl
        exact ⟨[0], hbs, .refl _⟩
      · obtain ⟨inner', rfl, hinner⟩ := h.of_present
        obtain ⟨back', hback', hperm⟩ := ih hinner back hback
        exact ⟨[1] ++ back', emit_optional_eq_done.mpr (.inr ⟨inner', back', rfl, hback', rfl⟩),
          hperm.append_left [1]⟩
  | array n elem name ih =>
      intro bs hbs
      obtain ⟨items, rfl, hlength, hitems⟩ := emit_array_eq_done.mp hbs
      obtain ⟨items', rfl, hsame⟩ := h.of_array
      have hitem : ∀ x y, Same x y → (elem.emit x).Shuffles (elem.emit y) := fun _ _ => ih
      obtain ⟨bs', hitems', hperm⟩ := Emission.Shuffles.each hitem hsame bs hitems
      exact ⟨bs', emit_array_eq_done.mpr ⟨items', rfl, hsame.length_eq ▸ hlength, hitems'⟩, hperm⟩
  | sequence elem name ih =>
      intro bs hbs
      obtain ⟨items, body, rfl, hitems, rfl⟩ := emit_sequence_eq_done.mp hbs
      obtain ⟨items', rfl, hsame⟩ := h.of_sequence
      have hitem : ∀ x y, Same x y → (elem.emit x).Shuffles (elem.emit y) := fun _ _ => ih
      obtain ⟨body', hitems', hperm⟩ := Emission.Shuffles.each hitem hsame body hitems
      rw [hsame.length_eq]
      exact ⟨_, emit_sequence_eq_done.mpr ⟨items', body', rfl, hitems', rfl⟩,
        hperm.append_left _⟩
  | map key val name ihkey ihval =>
      intro bs hbs
      obtain ⟨entries, body, rfl, hentries, rfl⟩ := emit_map_eq_done.mp hbs
      obtain ⟨entries', aligned, rfl, haligned, hsame⟩ := h.of_map
      have hshuffles : (Emission.each (emitEntry key val) entries).Shuffles
          (Emission.each (emitEntry key val) entries') := by
        refine .trans (.each (fun _ _ hxy => ?_) hsame) (.each_perm haligned)
        exact (ihkey hxy.1).andThen (ihval hxy.2)
      obtain ⟨body', hentries', hperm⟩ := hshuffles body hentries
      rw [hsame.length_eq.trans haligned.length_eq]
      exact ⟨_, emit_map_eq_done.mpr ⟨entries', body', rfl, hentries', rfl⟩, hperm.append_left _⟩
  | bytes name =>
      intro bs hbs
      obtain ⟨body, rfl, rfl⟩ := emit_bytes_eq_done.mp hbs
      obtain rfl := h.eq_of_isLeaf rfl
      exact ⟨_, hbs, .refl _⟩
  | record name fields ih =>
      intro bs hbs
      obtain ⟨values, rfl, hfields⟩ := emit_record_eq_done.mp hbs
      obtain ⟨values', rfl, hsame⟩ := h.of_record
      obtain ⟨bs', hfields', hperm⟩ :=
        shuffles_emitFields (fun f hf _ _ => ih f hf) hsame bs hfields
      exact ⟨bs', emit_record_eq_done.mpr ⟨values', rfl, hfields'⟩, hperm⟩

/-! ### What is read back -/

def keysScalar : Schema → Bool
  | map key _ _ => key.inner.scalarKind?.isSome
  | _ => true

/-- The keys of all maps, at whatever depth, are scalars or optional scalars. -/
def ScalarKeys (schema : Schema) : Prop := ∀ part ∈ schema.parts, part.keysScalar = true

theorem ScalarKeys.of_subset {schema part : Schema} (h : schema.ScalarKeys)
    (hsub : part.parts ⊆ schema.parts) : part.ScalarKeys := fun p hp => h p (hsub hp)

theorem norm_of_scalar {key : Schema} (hkey : key.inner.scalarKind?.isSome = true) (v : Value) :
    key.norm v = v := by
  cases key with
  | scalar => rfl
  | optional elem =>
      cases elem with
      | scalar => cases v <;> rfl
      | _ => cases hkey
  | _ => cases hkey

end Schema

namespace Value

def Equals (a b : Value) : Prop := (a == b) = true ∧ (b == a) = true

namespace Equals

theorem array {as bs : List Value} (h : List.Forall₂ Equals as bs) :
    Equals (.array as) (.array bs) :=
  ⟨beq_array_iff.mpr (h.imp fun _ _ hab => hab.1),
    beq_array_iff.mpr (h.flip.imp fun _ _ hab => hab.2)⟩

theorem sequence {as bs : List Value} (h : List.Forall₂ Equals as bs) :
    Equals (.sequence as) (.sequence bs) :=
  ⟨beq_sequence_iff.mpr (h.imp fun _ _ hab => hab.1),
    beq_sequence_iff.mpr (h.flip.imp fun _ _ hab => hab.2)⟩

theorem map {as bs aligned : Entries} (hperm : aligned.Perm bs)
    (h : List.Forall₂ (fun x y => Equals x.1 y.1 ∧ Equals x.2 y.2) as aligned) :
    Equals (.map as) (.map bs) := by
  have hlength := h.length_eq.trans hperm.length_eq
  refine ⟨beq_map_iff.mpr ⟨hlength, fun x hx => ?_⟩, beq_map_iff.mpr ⟨hlength.symm, fun y hy => ?_⟩⟩
  · obtain ⟨y, hy, hkey, hvalue⟩ := exists_mem_of_forall₂ h.flip x hx
    exact ⟨y, hperm.subset hy, hkey.2, hvalue.2⟩
  · obtain ⟨x, hx, hkey, hvalue⟩ := exists_mem_of_forall₂ h y (hperm.symm.subset hy)
    exact ⟨x, hx, hkey.1, hvalue.1⟩

theorem record {α : Type} {as : List α} {name : α → String} {g g' : α → Value}
    (hnames : (as.map name).Nodup) (h : ∀ a ∈ as, Equals (g a) (g' a)) :
    Equals (.record (as.map fun a => (name a, g a)))
      (.record (as.map fun a => (name a, g' a))) := by
  have hget : ∀ {u : α → Value}, ∀ a ∈ as,
      Fields.get? (name a) (as.map fun a => (name a, u a)) = some (u a) := by
    intro u a ha
    have hmem : (name a, u a) ∈ as.map fun a => (name a, u a) := List.mem_map_of_mem ha
    exact Fields.get?_of_mem (by rwa [List.map_map]) hmem
  constructor
  · refine beq_record_iff.mpr ⟨by simp, List.forall_mem_map.mpr fun a ha => ?_⟩
    exact ⟨g' a, hget a ha, (h a ha).2⟩
  · refine beq_record_iff.mpr ⟨by simp, List.forall_mem_map.mpr fun a ha => ?_⟩
    exact ⟨g a, hget a ha, (h a ha).1⟩

end Equals

theorem Same.equals {a b : Value} (h : Same a b) : Equals a b :=
  ⟨h.beq, equates_wellFormed.symm h.left h.right h.beq⟩

theorem WellFormed.pair {x y : Value × Value} (hx : x.1.WellFormed ∧ x.2.WellFormed)
    (hy : y.1.WellFormed ∧ y.2.WellFormed) (hne : (x.1 == y.1) = false) :
    (Value.map [x, y]).WellFormed :=
  .map (List.pairwise_pair.mpr hne) (by simp [hx.1, hy.1]) (by simp [hx.2, hy.2])

theorem WellFormed.equals_self {v : Value} (h : v.WellFormed) : Equals v v :=
  ⟨equates_wellFormed.refl h, equates_wellFormed.refl h⟩

end Value

namespace Schema

open Value

theorem wellFormed_zero {schema : Schema} (hnames : schema.DistinctNames) :
    schema.zero.WellFormed := by
  induction schema with
  | scalar kind name =>
      cases kind with
      | string => exact .text ""
      | bool => exact .flag false
      | num k => exact .num _
  | optional elem => exact .absent
  | array n elem name ih =>
      refine .array fun v hv => ?_
      rw [List.eq_of_mem_replicate hv]
      exact ih hnames
  | sequence => exact .sequence (List.forall_mem_nil _)
  | map => exact .map List.Pairwise.nil (List.forall_mem_nil _) (List.forall_mem_nil _)
  | bytes => exact .bytes []
  | record name fields ih =>
      have hfields := eachField_iff.mp hnames.2
      rw [zero, zeroFields_eq_map]
      refine .record (by rw [List.map_map]; exact hnames.1) (List.forall_mem_map.mpr fun f hf => ?_)
      exact ih f hf (hfields f hf)

theorem normFields_eq_map (fields : FieldList) (values : Fields) :
    normFields fields values = fields.map fun f =>
      (f.name,
        if f.skip then f.type.zero else (values.get? f.name).elim f.type.zero f.type.norm) := by
  induction fields with
  | nil => rfl
  | cons f fields ih => rw [normFields, List.map_cons, ih]

theorem norm_map {key val : Schema} {name : Option String}
    (hkey : key.inner.scalarKind?.isSome = true) {entries : Entries} (h : entries.DistinctKeys) :
    norm (.map key val name) (.map entries) = .map (entries.map fun e => (e.1, val.norm e.2)) := by
  have hdistinct : Entries.DistinctKeys (entries.map fun e => (e.1, val.norm e.2)) := by
    rw [Entries.DistinctKeys, List.map_map]
    exact h
  simp only [norm, norm_of_scalar hkey, Entries.fold_of_distinct hdistinct]

theorem forall₂_norm {elem : Schema} {items items' : List Value} {out : Bytes}
    (helem : ∀ {a b bs}, Same a b → elem.emit a = .done bs → Equals (elem.norm a) (elem.norm b))
    (hsame : List.Forall₂ Same items items') (hitems : Emission.each elem.emit items = .done out) :
    List.Forall₂ Equals (items.map elem.norm) (items'.map elem.norm) := by
  refine List.forall₂_map_left_iff.mpr (List.forall₂_map_right_iff.mpr ?_)
  refine ((List.forall₂_and_left _ _).mpr ⟨exists_of_each_eq_done hitems, hsame⟩).imp ?_
  rintro x y ⟨⟨part, hpart⟩, hxy⟩
  exact helem hxy hpart

theorem equals_norm {schema : Schema} (hkeys : schema.ScalarKeys) (hnames : schema.DistinctNames)
    {a b : Value} {bs : Bytes} (h : Same a b) (hemit : schema.emit a = .done bs) :
    Equals (schema.norm a) (schema.norm b) := by
  induction schema generalizing a b bs with
  | scalar | bytes => exact h.equals
  | optional elem ih =>
      have hkeys : elem.ScalarKeys := hkeys.of_subset (List.subset_cons_self _ _)
      rcases emit_optional_eq_done.mp hemit with ⟨rfl, rfl⟩ | ⟨inner, back, rfl, hback, rfl⟩
      · obtain rfl := h.eq_of_isLeaf rfl
        exact h.equals
      · obtain ⟨inner', rfl, hinner⟩ := h.of_present
        exact ih hkeys hnames hinner hback
  | array n elem name ih =>
      have hkeys : elem.ScalarKeys := hkeys.of_subset (List.subset_cons_self _ _)
      obtain ⟨items, rfl, -, hitems⟩ := emit_array_eq_done.mp hemit
      obtain ⟨items', rfl, hsame⟩ := h.of_array
      rw [norm, norm]
      exact .array (forall₂_norm (ih hkeys hnames) hsame hitems)
  | sequence elem name ih =>
      have hkeys : elem.ScalarKeys := hkeys.of_subset (List.subset_cons_self _ _)
      obtain ⟨items, body, rfl, hitems, -⟩ := emit_sequence_eq_done.mp hemit
      obtain ⟨items', rfl, hsame⟩ := h.of_sequence
      rw [norm, norm]
      exact .sequence (forall₂_norm (ih hkeys hnames) hsame hitems)
  | map key val name ihkey ihval =>
      obtain ⟨hkey, hparts⟩ := List.forall_mem_cons.mp hkeys
      have hkeys : val.ScalarKeys := fun p hp => hparts p (List.mem_append_right _ hp)
      obtain ⟨entries, body, rfl, hentries, -⟩ := emit_map_eq_done.mp hemit
      obtain ⟨entries', aligned, rfl, hperm, hsame⟩ := h.of_map
      rw [norm_map hkey h.left.parts.1, norm_map hkey h.right.parts.1]
      refine .map (hperm.map _) (List.forall₂_map_left_iff.mpr (List.forall₂_map_right_iff.mpr ?_))
      refine ((List.forall₂_and_left _ _).mpr ⟨exists_of_each_eq_done hentries, hsame⟩).imp ?_
      rintro x y ⟨⟨part, hpart⟩, hxy⟩
      obtain ⟨_, back, -, hback, -⟩ := Emission.andThen_eq_done.mp hpart
      exact ⟨hxy.1.equals, ihval hkeys hnames.2 hxy.2 hback⟩
  | record name fields ih =>
      have hfields := eachField_iff.mp hnames.2
      obtain ⟨values, rfl, hvalues⟩ := emit_record_eq_done.mp hemit
      obtain ⟨values', rfl, hsame⟩ := h.of_record
      rw [norm, norm, normFields_eq_map, normFields_eq_map]
      refine .record hnames.1 fun f hf => ?_
      have hkeys : f.type.ScalarKeys := hkeys.of_subset fun p hp =>
        List.mem_cons_of_mem _ (mem_fieldParts.mpr ⟨f, hf, hp⟩)
      cases hskip : f.skip with
      | true => exact (wellFormed_zero (hfields f hf)).equals_self
      | false =>
          obtain ⟨v, part, hv, hpart⟩ := exists_of_emitFields hvalues f hf hskip
          obtain ⟨w, hw, hvw⟩ := hsame f.name v hv
          rw [hv, hw]
          exact ih f hf hkeys (hfields f hf) hvw hpart

/-- Encoding respects equality. Of equal values either both have an encoding or neither has. The two
encodings consist of the same bytes, so they are of one length, but these may stand in another
order. What is decoded from them is equal. -/
theorem encode_of_beq {schema : Schema} (hstrip : schema.strip = schema)
    (hkeys : schema.ScalarKeys) (hnames : schema.DistinctNames) {a b : Value}
    (ha : a.WellFormed) (hb : b.WellFormed) (hashort : a.short = true) (hbshort : b.short = true)
    (heq : (a == b) = true) :
    ((∃ bs, schema.encode a = .ok bs) ↔ ∃ bs, schema.encode b = .ok bs) ∧
      ∀ bs bs', schema.encode a = .ok bs → schema.encode b = .ok bs' →
        bs'.Perm bs ∧ bs'.length = bs.length ∧
          ∃ v w, schema.reader (.start bs) = .ok v ⟨bs.length, []⟩ ∧
            schema.reader (.start bs') = .ok w ⟨bs'.length, []⟩ ∧ (v == w) = true := by
  have hsame : Same a b := ⟨ha, hb, heq⟩
  have hback : Same b a := ⟨hb, ha, equates_wellFormed.symm ha hb heq⟩
  have hreader : ∀ {v bs}, v.short = true → schema.emit v = .done bs →
      schema.reader (.start bs) = .ok (schema.norm v) ⟨bs.length, []⟩ := by
    intro v bs hshort hemit
    have haccepts : schema.accepts v = true := hstrip ▸ accepts_strip hemit
    have hreadable : schema.readable [] v = true :=
      readable_of_accepts hemit hshort haccepts (by simp)
    exact readsBack schema hemit hreadable (Cursor.passed_start bs)
  simp only [encode_eq_ok]
  refine ⟨⟨?_, ?_⟩, ?_⟩
  · rintro ⟨bs, hbs⟩
    obtain ⟨bs', hbs', -⟩ := shuffles_emit schema hsame bs hbs
    exact ⟨bs', hbs'⟩
  · rintro ⟨bs, hbs⟩
    obtain ⟨bs', hbs', -⟩ := shuffles_emit schema hback bs hbs
    exact ⟨bs', hbs'⟩
  · intro bs bs' hbs hbs'
    obtain ⟨found, hfound, hperm⟩ := shuffles_emit schema hsame bs hbs
    obtain rfl := Emission.done_inj.mp (hfound.symm.trans hbs')
    have hnorm := equals_norm hkeys hnames hsame hbs
    exact ⟨hperm, hperm.length_eq, _, _, hreader hashort hbs, hreader hbshort hbs', hnorm.1⟩

def switchboardSchema : Schema :=
  .record none
    [⟨"On", .map (.optional (.scalar (.num .uint8) none)) (.scalar .bool none) none, false, []⟩,
     ⟨"Place", .array 1 (.scalar (.num .uint8) none) none, false, []⟩]

def mainSwitch : Value × Value := (.absent, .flag true)

def spareSwitch : Value × Value := (.present (.num ⟨.uint8, 9⟩), .flag false)

def switchboard : Value :=
  .record [("On", .map [mainSwitch, spareSwitch]), ("Place", .array [.num ⟨.uint8, 5⟩])]

def turnedSwitchboard : Value :=
  .record [("Place", .array [.num ⟨.uint8, 5⟩]), ("On", .map [spareSwitch, mainSwitch])]

/-- Equal values with encodings that are not equal, since the entries stand in their own order. -/
theorem encode_of_beq_switchboard :
    let bs : Bytes := [4, 0, 0, 0, 0, 0, 0, 0, 0, 1, 1, 9, 0, 5]
    let bs' : Bytes := [4, 0, 0, 0, 0, 0, 0, 0, 1, 9, 0, 0, 1, 5]
    (switchboard == turnedSwitchboard) = true ∧ switchboardSchema.encode switchboard = .ok bs ∧
    switchboardSchema.encode turnedSwitchboard = .ok bs' ∧ bs ≠ bs' ∧ bs'.Perm bs ∧
    ∃ v w, switchboardSchema.reader (.start bs) = .ok v ⟨14, []⟩ ∧
      switchboardSchema.reader (.start bs') = .ok w ⟨14, []⟩ ∧ (v == w) = true := by
  intro bs bs'
  have hkeys : switchboardSchema.ScalarKeys := by
    rw [ScalarKeys]
    decide
  have hnames : switchboardSchema.DistinctNames :=
    ⟨by decide, ⟨trivial, trivial⟩, trivial, trivial⟩
  have hmain : mainSwitch.1.WellFormed ∧ mainSwitch.2.WellFormed := ⟨.absent, .flag true⟩
  have hspare : spareSwitch.1.WellFormed ∧ spareSwitch.2.WellFormed :=
    ⟨.present (.num _), .flag false⟩
  have hplace : ∀ n, (Value.array [.num n]).WellFormed := fun n => .array (by simp [WellFormed.num])
  have ha : switchboard.WellFormed :=
    .record (by decide) (by simp [WellFormed.pair hmain hspare rfl, hplace])
  have hb : turnedSwitchboard.WellFormed :=
    .record (by decide) (by simp [WellFormed.pair hspare hmain rfl, hplace])
  have heq : (switchboard == turnedSwitchboard) = true := rfl
  have hbs : switchboardSchema.encode switchboard = .ok bs := rfl
  have hbs' : switchboardSchema.encode turnedSwitchboard = .ok bs' := rfl
  obtain ⟨-, hboth⟩ := encode_of_beq rfl hkeys hnames ha hb rfl rfl heq
  obtain ⟨hperm, -, hdecoded⟩ := hboth bs bs' hbs hbs'
  exact ⟨heq, hbs, hbs', by decide, hperm, hdecoded⟩

end Schema

end SchemaWire
