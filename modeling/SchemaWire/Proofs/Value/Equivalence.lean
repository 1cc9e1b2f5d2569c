import Mathlib.Data.List.Forall2
import Mathlib.Data.List.Perm.Subperm
import SchemaWire.Proofs.Value.Entries
import SchemaWire.Proofs.Value.Record

/-!
Equality of values as an equivalence.

The comparison of two values goes down into both, and for maps and records they change places on the
way; to swap them makes no difference to the answer. So equality of containers comes down to
equality of what is in them. A map is only asked whether it holds each entry of the other, and a
record likewise, besides their sizes. Where no key and no name is repeated this is enough: then
every entry of either map is met once, and equality is an equivalence.
-/

namespace SchemaWire.Value

/-! ### The two sides -/

theorem equalItems_iff {swapped : Bool} {as bs : List Value} :
    equalItems swapped as bs = true ↔
      List.Forall₂ (fun a b => equal swapped a b = true) as bs := by
  induction as generalizing bs with
  | nil => cases bs <;> simp [equalItems]
  | cons a as ih => cases bs <;> simp [equalItems, ih]

theorem eachHeldBy_iff {as bs : Entries} :
    eachHeldBy as bs = true ↔
      ∀ x ∈ as, ∃ y ∈ bs, equal true x.1 y.1 = true ∧ equal true x.2 y.2 = true := by
  induction as with
  | nil => simp [eachHeldBy]
  | cons x as ih => simp [eachHeldBy, ih]

theorem holdsEntry_iff {as : Entries} {y : Value × Value} :
    holdsEntry as y = true ↔
      ∃ x ∈ as, equal false x.1 y.1 = true ∧ equal false x.2 y.2 = true := by
  induction as with
  | nil => simp [holdsEntry]
  | cons x as ih => simp [holdsEntry, ih]

theorem eachFieldOf_iff {as bs : Fields} :
    eachFieldOf as bs = true ↔
      ∀ f ∈ as, ∃ w, Fields.get? f.1 bs = some w ∧ equal true f.2 w = true := by
  induction as with
  | nil => simp [eachFieldOf]
  | cons f as ih =>
      rw [List.forall_mem_cons, ← ih, eachFieldOf, Bool.and_eq_true]
      cases Fields.get? f.1 bs <;> simp

theorem hasField_iff {as : Fields} {f : String × Value} :
    hasField as f = true ↔ ∃ v, Fields.get? f.1 as = some v ∧ equal false v f.2 = true := by
  induction as with
  | nil => simp [hasField, Fields.get?]
  | cons g as ih =>
      rw [hasField, Fields.get?]
      split
      · simp
      · exact ih

/-- To swap `a` and another value, and to say so, makes no difference to their comparison. -/
def Swaps (a : Value) : Prop :=
  ∀ b, (equal true a b = true ↔ equal false b a = true) ∧
    (equal true b a = true ↔ equal false a b = true)

theorem equalItems_swap {as bs : List Value} (h : ∀ a ∈ as, Swaps a) :
    (equalItems true as bs = true ↔ equalItems false bs as = true) ∧
      (equalItems true bs as = true ↔ equalItems false as bs = true) := by
  induction as generalizing bs with
  | nil => cases bs <;> simp [equalItems]
  | cons a as ih =>
      cases bs with
      | nil => simp [equalItems]
      | cons b bs =>
          obtain ⟨hhead, htail⟩ := List.forall_mem_cons.mp h
          simp only [equalItems, Bool.and_eq_true]
          exact ⟨and_congr (hhead b).1 (ih htail).1, and_congr (hhead b).2 (ih htail).2⟩

theorem swaps (a : Value) : Swaps a := by
  intro b
  induction a generalizing b with
  | text | flag | num | bytes => cases b <;> simp [equal, eq_comm]
  | absent => cases b <;> simp [equal]
  | present inner ih =>
      cases b with
      | present inner' => exact ih inner'
      | _ => simp [equal]
  | array items ih =>
      cases b with
      | array items' => exact equalItems_swap ih
      | _ => simp [equal]
  | sequence items ih =>
      cases b with
      | sequence items' => exact equalItems_swap ih
      | _ => simp [equal]
  | map entries ih =>
      cases b with
      | map entries' =>
          simp only [equal, Bool.and_eq_true, decide_eq_true_eq, List.all_eq_true, holdsEntry_iff,
            eachHeldBy_iff]
          constructor
          · refine and_congr eq_comm (forall₂_congr fun y _ => exists_congr fun x => ?_)
            exact and_congr_right fun hx =>
              and_congr ((ih x hx).1 y.1).2.symm ((ih x hx).2 y.2).2.symm
          · refine and_congr eq_comm (forall₂_congr fun x hx => exists_congr fun y => ?_)
            exact and_congr_right fun _ =>
              and_congr ((ih x hx).1 y.1).1.symm ((ih x hx).2 y.2).1.symm
      | _ => simp [equal]
  | record fields ih =>
      cases b with
      | record fields' =>
          simp only [equal, Bool.and_eq_true, decide_eq_true_eq, List.all_eq_true, hasField_iff,
            eachFieldOf_iff]
          constructor
          · refine and_congr eq_comm (forall₂_congr fun g _ => exists_congr fun v => ?_)
            exact and_congr_right fun hv => (ih _ (Fields.mem_of_get? hv) g.2).2.symm
          · refine and_congr eq_comm (forall₂_congr fun f hf => exists_congr fun w => ?_)
            exact and_congr_right fun _ => (ih f hf w).1.symm
      | _ => simp [equal]

/-! ### Equal containers -/

theorem beq_array_iff {as bs : List Value} :
    (array as == array bs) = true ↔ List.Forall₂ (fun a b => (a == b) = true) as bs :=
  equalItems_iff

theorem beq_sequence_iff {as bs : List Value} :
    (sequence as == sequence bs) = true ↔ List.Forall₂ (fun a b => (a == b) = true) as bs :=
  equalItems_iff

theorem beq_map_iff {as bs : Entries} :
    (map as == map bs) = true ↔ as.length = bs.length ∧
      ∀ x ∈ as, ∃ y ∈ bs, (y.1 == x.1) = true ∧ (y.2 == x.2) = true := by
  show equal false (map as) (map bs) = true ↔ _
  simp only [equal, Bool.and_eq_true, decide_eq_true_eq, eachHeldBy_iff]
  refine and_congr_right fun _ => forall₂_congr fun x _ => exists_congr fun y => ?_
  exact and_congr_right fun _ => and_congr (swaps x.1 y.1).1 (swaps x.2 y.2).1

theorem beq_record_iff {as bs : Fields} :
    (record as == record bs) = true ↔ as.length = bs.length ∧
      ∀ f ∈ as, ∃ w, bs.get? f.1 = some w ∧ (w == f.2) = true := by
  show equal false (record as) (record bs) = true ↔ _
  simp only [equal, Bool.and_eq_true, decide_eq_true_eq, eachFieldOf_iff]
  refine and_congr_right fun _ => forall₂_congr fun f _ => exists_congr fun w => ?_
  exact and_congr_right fun _ => (swaps f.2 w).1

def isLeaf : Value → Bool
  | .text _ | .flag _ | .num _ | .absent | .bytes _ => true
  | _ => false

theorem eq_of_beq_leaf {a b : Value} (hleaf : a.isLeaf = true) (h : (a == b) = true) : b = a := by
  cases a with
  | text | flag | num | bytes | absent => cases b <;> simp_all [BEq.beq, equal]
  | _ => cases hleaf

/-! ### Well-formed values -/

/-- At every depth no map repeats a key and no record a name. -/
inductive WellFormed : Value → Prop where
  | text (s : String) : WellFormed (.text s)
  | flag (b : Bool) : WellFormed (.flag b)
  | num (n : Num) : WellFormed (.num n)
  | absent : WellFormed .absent
  | present {inner : Value} : WellFormed inner → WellFormed (.present inner)
  | array {items : List Value} : (∀ v ∈ items, WellFormed v) → WellFormed (.array items)
  | sequence {items : List Value} : (∀ v ∈ items, WellFormed v) → WellFormed (.sequence items)
  | map {entries : Entries} : entries.DistinctKeys → (∀ e ∈ entries, WellFormed e.1) →
      (∀ e ∈ entries, WellFormed e.2) → WellFormed (.map entries)
  | bytes (bs : Bytes) : WellFormed (.bytes bs)
  | record {fields : Fields} : (fields.map (·.1)).Nodup → (∀ f ∈ fields, WellFormed f.2) →
      WellFormed (.record fields)

/-- The value is well formed on the outside, and what is directly in it has the property. -/
def MadeOf (P : Value → Prop) : Value → Prop
  | .present inner => P inner
  | .array items | .sequence items => ∀ v ∈ items, P v
  | .map entries => Entries.DistinctKeys entries ∧ ∀ e ∈ entries, P e.1 ∧ P e.2
  | .record fields => (fields.map (·.1)).Nodup ∧ ∀ f ∈ fields, P f.2
  | _ => True

structure Equates (P : Value → Prop) : Prop where
  refl : ∀ {a}, P a → (a == a) = true
  symm : ∀ {a b}, P a → P b → (a == b) = true → (b == a) = true
  trans : ∀ {a b c}, P a → P b → P c → (a == b) = true → (b == c) = true → (a == c) = true

/-! ### Rearrangement -/

/-- Lists of one length, each element of the one related to an element of the other and no two to
the same: then the other can be rearranged so that the elements are related one by one. -/
theorem exists_perm_forall₂ {α : Type} [Inhabited α] {R : α → α → Prop} {as bs : List α}
    (hlength : as.length = bs.length) (hfound : ∀ a ∈ as, ∃ b ∈ bs, R a b)
    (happart : as.Pairwise fun a a' => ∀ b ∈ bs, R a b → ¬ R a' b) :
    ∃ cs, cs.Perm bs ∧ List.Forall₂ R as cs := by
  choose! f hmem hrel using hfound
  have hnodup : (as.map f).Nodup := by
    refine List.pairwise_map.mpr (happart.imp_of_mem fun {a a'} ha ha' hne heq => ?_)
    exact hne (f a) (hmem a ha) (hrel a ha) (heq ▸ hrel a' ha')
  have hsub : as.map f ⊆ bs := by
    rintro _ hb
    obtain ⟨a, ha, rfl⟩ := List.mem_map.mp hb
    exact hmem a ha
  have hperm := (List.subperm_of_subset hnodup hsub).perm_of_length_le (by simp [hlength])
  exact ⟨as.map f, hperm, List.forall₂_map_right_iff.mpr (List.forall₂_same.mpr hrel)⟩

theorem exists_mem_of_forall₂ {α β : Type} {R : α → β → Prop} {as : List α} {bs : List β}
    (h : List.Forall₂ R as bs) : ∀ b ∈ bs, ∃ a ∈ as, R a b := by
  induction h with
  | nil => exact List.forall_mem_nil _
  | cons hab _ ih =>
      refine List.forall_mem_cons.mpr ⟨⟨_, List.mem_cons_self, hab⟩, fun b hb => ?_⟩
      obtain ⟨a, ha, hrel⟩ := ih b hb
      exact ⟨a, List.mem_cons_of_mem _ ha, hrel⟩

/-- The entries of `bs` can be rearranged so that one by one they equal those of `as`. -/
def Rearranges (as bs : Entries) : Prop :=
  ∃ cs : Entries, cs.Perm bs ∧
    List.Forall₂ (fun x y => (x.1 == y.1) = true ∧ (x.2 == y.2) = true) as cs

namespace Equates

variable {P : Value → Prop}

theorem mono {Q : Value → Prop} (h : Equates Q) (hPQ : ∀ {v}, P v → Q v) : Equates P where
  refl ha := h.refl (hPQ ha)
  symm ha hb := h.symm (hPQ ha) (hPQ hb)
  trans ha hb hc := h.trans (hPQ ha) (hPQ hb) (hPQ hc)

theorem items_refl (h : Equates P) {as : List Value} (has : ∀ a ∈ as, P a) :
    List.Forall₂ (fun a b => (a == b) = true) as as :=
  List.forall₂_same.mpr fun a ha => h.refl (has a ha)

theorem items_symm (h : Equates P) {as bs : List Value} (has : ∀ a ∈ as, P a)
    (hbs : ∀ b ∈ bs, P b) (heq : List.Forall₂ (fun a b => (a == b) = true) as bs) :
    List.Forall₂ (fun a b => (a == b) = true) bs as := by
  induction heq with
  | nil => exact .nil
  | cons hab _ ih =>
      obtain ⟨ha, has⟩ := List.forall_mem_cons.mp has
      obtain ⟨hb, hbs⟩ := List.forall_mem_cons.mp hbs
      exact .cons (h.symm ha hb hab) (ih has hbs)

theorem items_trans (h : Equates P) {as bs cs : List Value} (has : ∀ a ∈ as, P a)
    (hbs : ∀ b ∈ bs, P b) (hcs : ∀ c ∈ cs, P c)
    (hab : List.Forall₂ (fun a b => (a == b) = true) as bs)
    (hbc : List.Forall₂ (fun a b => (a == b) = true) bs cs) :
    List.Forall₂ (fun a b => (a == b) = true) as cs := by
  induction hab generalizing cs with
  | nil => exact hbc
  | cons hab _ ih =>
      cases hbc with
      | cons hbc hrest =>
          obtain ⟨ha, has⟩ := List.forall_mem_cons.mp has
          obtain ⟨hb, hbs⟩ := List.forall_mem_cons.mp hbs
          obtain ⟨hc, hcs⟩ := List.forall_mem_cons.mp hcs
          exact .cons (h.trans ha hb hc hab hbc) (ih has hbs hcs hrest)

/-- A map has as many entries as one that equals it, and its keys are apart, so it takes each entry
of the other once. -/
theorem map_iff (h : Equates P) {as bs : Entries} (has : MadeOf P (map as))
    (hbs : MadeOf P (map bs)) : (map as == map bs) = true ↔ Rearranges as bs := by
  rw [beq_map_iff]
  constructor
  · rintro ⟨hlength, hfound⟩
    refine exists_perm_forall₂ hlength (fun x hx => ?_) ?_
    · obtain ⟨y, hy, hkey, hvalue⟩ := hfound x hx
      exact ⟨y, hy, h.symm (hbs.2 y hy).1 (has.2 x hx).1 hkey,
        h.symm (hbs.2 y hy).2 (has.2 x hx).2 hvalue⟩
    · refine (List.pairwise_map.mp has.1).imp_of_mem fun {x x'} hx hx' hapart y hy hxy hxy' => ?_
      have hback := h.symm (has.2 x' hx').1 (hbs.2 y hy).1 hxy'.1
      have hsame := h.trans (has.2 x hx).1 (hbs.2 y hy).1 (has.2 x' hx').1 hxy.1 hback
      rw [hapart] at hsame
      cases hsame
  · rintro ⟨cs, hperm, hcs⟩
    refine ⟨hcs.length_eq.trans hperm.length_eq, fun x hx => ?_⟩
    obtain ⟨y, hy, hkey, hvalue⟩ := exists_mem_of_forall₂ hcs.flip x hx
    have hy := hperm.subset hy
    exact ⟨y, hy, h.symm (has.2 x hx).1 (hbs.2 y hy).1 hkey,
      h.symm (has.2 x hx).2 (hbs.2 y hy).2 hvalue⟩

theorem map_refl (h : Equates P) {as : Entries} (has : MadeOf P (map as)) :
    (map as == map as) = true :=
  beq_map_iff.mpr ⟨rfl, fun x hx => ⟨x, hx, h.refl (has.2 x hx).1, h.refl (has.2 x hx).2⟩⟩

theorem map_symm (h : Equates P) {as bs : Entries} (has : MadeOf P (map as))
    (hbs : MadeOf P (map bs)) (heq : (map as == map bs) = true) : (map bs == map as) = true := by
  obtain ⟨cs, hperm, hcs⟩ := (h.map_iff has hbs).mp heq
  refine beq_map_iff.mpr ⟨(hcs.length_eq.trans hperm.length_eq).symm, fun y hy => ?_⟩
  exact exists_mem_of_forall₂ hcs y (hperm.symm.subset hy)

theorem map_trans (h : Equates P) {as bs cs : Entries} (has : MadeOf P (map as))
    (hbs : MadeOf P (map bs)) (hcs : MadeOf P (map cs)) (hab : (map as == map bs) = true)
    (hbc : (map bs == map cs) = true) : (map as == map cs) = true := by
  obtain ⟨hlength, hab⟩ := beq_map_iff.mp hab
  obtain ⟨hlength', hbc⟩ := beq_map_iff.mp hbc
  refine beq_map_iff.mpr ⟨hlength.trans hlength', fun x hx => ?_⟩
  obtain ⟨y, hy, hkey, hvalue⟩ := hab x hx
  obtain ⟨z, hz, hkey', hvalue'⟩ := hbc y hy
  exact ⟨z, hz, h.trans (hcs.2 z hz).1 (hbs.2 y hy).1 (has.2 x hx).1 hkey' hkey,
    h.trans (hcs.2 z hz).2 (hbs.2 y hy).2 (has.2 x hx).2 hvalue' hvalue⟩

theorem record_iff (h : Equates P) {as bs : Fields} (has : MadeOf P (record as))
    (hbs : MadeOf P (record bs)) :
    (record as == record bs) = true ↔ ∀ name, (as.get? name == bs.get? name) = true := by
  rw [beq_record_iff]
  constructor
  · rintro ⟨hlength, hfound⟩ name
    have hsub : as.map (·.1) ⊆ bs.map (·.1) := by
      intro name hname
      obtain ⟨v, hv⟩ := Fields.mem_names_iff.mp hname
      obtain ⟨w, hw, -⟩ := hfound _ (Fields.mem_of_get? hv)
      exact Fields.mem_names_iff.mpr ⟨w, hw⟩
    -- the names are as many on either side, so there are no others on the right
    have hnames := (List.subperm_of_subset has.1 hsub).perm_of_length_le (by simp [hlength])
    cases hv : as.get? name with
    | some v =>
        have hmem := Fields.mem_of_get? hv
        obtain ⟨w, hw, hwv⟩ := hfound _ hmem
        rw [hw]
        exact h.symm (hbs.2 _ (Fields.mem_of_get? hw)) (has.2 _ hmem) hwv
    | none =>
        cases hw : bs.get? name with
        | none => rfl
        | some w =>
            have hname := hnames.symm.subset (Fields.mem_names_iff.mpr ⟨w, hw⟩)
            obtain ⟨v, hv'⟩ := Fields.mem_names_iff.mp hname
            rw [hv] at hv'
            cases hv'
  · intro hsame
    have hnames : (as.map (·.1)).Perm (bs.map (·.1)) := by
      refine (List.perm_ext_iff_of_nodup has.1 hbs.1).mpr fun name => ?_
      have hname := hsame name
      rw [Fields.mem_names_iff, Fields.mem_names_iff]
      cases has : as.get? name <;> cases hbs : bs.get? name <;> simp_all
    refine ⟨by simpa using hnames.length_eq, fun f hf => ?_⟩
    have hname := hsame f.1
    rw [Fields.get?_of_mem has.1 hf] at hname
    cases hw : bs.get? f.1 with
    | none =>
        rw [hw] at hname
        cases hname
    | some w =>
        rw [hw] at hname
        exact ⟨w, rfl, h.symm (has.2 f hf) (hbs.2 _ (Fields.mem_of_get? hw)) hname⟩

theorem record_refl (h : Equates P) {as : Fields} (has : MadeOf P (record as)) :
    (record as == record as) = true :=
  beq_record_iff.mpr ⟨rfl, fun f hf => ⟨f.2, Fields.get?_of_mem has.1 hf, h.refl (has.2 f hf)⟩⟩

theorem record_symm (h : Equates P) {as bs : Fields} (has : MadeOf P (record as))
    (hbs : MadeOf P (record bs)) (heq : (record as == record bs) = true) :
    (record bs == record as) = true := by
  have hsame := (h.record_iff has hbs).mp heq
  refine beq_record_iff.mpr ⟨(beq_record_iff.mp heq).1.symm, fun g hg => ?_⟩
  have hname := hsame g.1
  rw [Fields.get?_of_mem hbs.1 hg] at hname
  cases hv : as.get? g.1 with
  | none =>
      rw [hv] at hname
      cases hname
  | some v =>
      rw [hv] at hname
      exact ⟨v, rfl, hname⟩

theorem record_trans (h : Equates P) {as bs cs : Fields} (has : MadeOf P (record as))
    (hbs : MadeOf P (record bs)) (hcs : MadeOf P (record cs))
    (hab : (record as == record bs) = true) (hbc : (record bs == record cs) = true) :
    (record as == record cs) = true := by
  obtain ⟨hlength, hab⟩ := beq_record_iff.mp hab
  obtain ⟨hlength', hbc⟩ := beq_record_iff.mp hbc
  refine beq_record_iff.mpr ⟨hlength.trans hlength', fun f hf => ?_⟩
  obtain ⟨w, hw, hwf⟩ := hab f hf
  have hw := Fields.mem_of_get? hw
  obtain ⟨u, hu, huw⟩ := hbc _ hw
  exact ⟨u, hu, h.trans (hcs.2 _ (Fields.mem_of_get? hu)) (hbs.2 _ hw) (has.2 f hf) huw hwf⟩

/-- If equality is an equivalence among some values, it is one among the values made of them. -/
theorem madeOf (h : Equates P) : Equates (MadeOf P) where
  refl {a} ha := by
    cases a with
    | text | flag | num | bytes => simp [BEq.beq, equal]
    | absent => rfl
    | present inner => exact h.refl (a := inner) ha
    | array => exact beq_array_iff.mpr (h.items_refl ha)
    | sequence => exact beq_sequence_iff.mpr (h.items_refl ha)
    | map => exact h.map_refl ha
    | record => exact h.record_refl ha
  symm {a b} ha hb hab := by
    cases a with
    | text | flag | num | bytes | absent =>
        obtain rfl := eq_of_beq_leaf rfl hab
        exact hab
    | present x =>
        cases b with
        | present y => exact h.symm (a := x) (b := y) ha hb hab
        | _ => cases hab
    | array =>
        cases b with
        | array => exact beq_array_iff.mpr (h.items_symm ha hb (beq_array_iff.mp hab))
        | _ => cases hab
    | sequence =>
        cases b with
        | sequence => exact beq_sequence_iff.mpr (h.items_symm ha hb (beq_sequence_iff.mp hab))
        | _ => cases hab
    | map =>
        cases b with
        | map => exact h.map_symm ha hb hab
        | _ => cases hab
    | record =>
        cases b with
        | record => exact h.record_symm ha hb hab
        | _ => cases hab
  trans {a b c} ha hb hc hab hbc := by
    cases a with
    | text | flag | num | bytes | absent =>
        obtain rfl := eq_of_beq_leaf rfl hab
        exact hbc
    | present x =>
        cases b with
        | present y =>
            cases c with
            | present z => exact h.trans (a := x) (b := y) (c := z) ha hb hc hab hbc
            | _ => cases hbc
        | _ => cases hab
    | array =>
        cases b with
        | array =>
            cases c with
            | array =>
                rw [beq_array_iff] at hab hbc ⊢
                exact h.items_trans ha hb hc hab hbc
            | _ => cases hbc
        | _ => cases hab
    | sequence =>
        cases b with
        | sequence =>
            cases c with
            | sequence =>
                rw [beq_sequence_iff] at hab hbc ⊢
                exact h.items_trans ha hb hc hab hbc
            | _ => cases hbc
        | _ => cases hab
    | map =>
        cases b with
        | map =>
            cases c with
            | map => exact h.map_trans ha hb hc hab hbc
            | _ => cases hbc
        | _ => cases hab
    | record =>
        cases b with
        | record =>
            cases c with
            | record => exact h.record_trans ha hb hc hab hbc
            | _ => cases hbc
        | _ => cases hab

end Equates

/-! ### The equivalence -/

theorem WellFormed.madeOf {v : Value} (h : v.WellFormed) {n : Nat} (hn : sizeOf v ≤ n) :
    MadeOf (fun p => p.WellFormed ∧ sizeOf p < n) v := by
  cases h with
  | text | flag | num | absent | bytes => trivial
  | present hinner =>
      rw [present.sizeOf_spec] at hn
      exact ⟨hinner, by omega⟩
  | array hitems =>
      rw [array.sizeOf_spec] at hn
      intro v hv
      have hlt := List.sizeOf_lt_of_mem hv
      exact ⟨hitems v hv, by omega⟩
  | sequence hitems =>
      rw [sequence.sizeOf_spec] at hn
      intro v hv
      have hlt := List.sizeOf_lt_of_mem hv
      exact ⟨hitems v hv, by omega⟩
  | map hkeys hkey hvalue =>
      rw [map.sizeOf_spec] at hn
      refine ⟨hkeys, fun e he => ?_⟩
      have hlt := List.sizeOf_lt_of_mem he
      rw [Prod.mk.sizeOf_spec] at hlt
      exact ⟨⟨hkey e he, by omega⟩, hvalue e he, by omega⟩
  | record hnames hvalue =>
      rw [record.sizeOf_spec] at hn
      refine ⟨hnames, fun f hf => ?_⟩
      have hlt := List.sizeOf_lt_of_mem hf
      rw [Prod.mk.sizeOf_spec] at hlt
      exact ⟨hvalue f hf, by omega⟩

/-- Equality is an equivalence among well-formed values. By induction on a bound of their sizes:
the two sides change places on the way down, so all three values have to be within it. -/
theorem equates_wellFormed : Equates WellFormed := by
  have hbound : ∀ n, Equates fun v => v.WellFormed ∧ sizeOf v < n := by
    intro n
    induction n with
    | zero => exact ⟨nofun, nofun, nofun⟩
    | succ n ih => exact ih.madeOf.mono fun hv => hv.1.madeOf (Nat.le_of_lt_succ hv.2)
  refine ⟨fun {a} ha => ?_, fun {a b} ha hb => ?_, fun {a b c} ha hb hc => ?_⟩
  · exact (hbound (sizeOf a + 1)).refl ⟨ha, by omega⟩
  · exact (hbound (sizeOf a + sizeOf b + 1)).symm ⟨ha, by omega⟩ ⟨hb, by omega⟩
  · exact (hbound (sizeOf a + sizeOf b + sizeOf c + 1)).trans ⟨ha, by omega⟩ ⟨hb, by omega⟩
      ⟨hc, by omega⟩

theorem WellFormed.parts {v : Value} (h : v.WellFormed) : MadeOf WellFormed v := by
  cases h with
  | text | flag | num | absent | bytes => trivial
  | present hinner => exact hinner
  | array hitems | sequence hitems => exact hitems
  | map hkeys hkey hvalue => exact ⟨hkeys, fun e he => ⟨hkey e he, hvalue e he⟩⟩
  | record hnames hvalue => exact ⟨hnames, hvalue⟩

/-- Among well-formed values equality is an equivalence. A map equals another exactly if the entries
of the other can be rearranged to equal its own one by one, and a record equals another exactly if
every name leads to equal values in both, or to none in either. -/
theorem beq_equivalence :
    Equivalence (fun a b : { v : Value // v.WellFormed } => (a.1 == b.1) = true) ∧
    (∀ as bs : Entries, (map as).WellFormed → (map bs).WellFormed →
      ((map as == map bs) = true ↔ ∃ cs : Entries, cs.Perm bs ∧
        List.Forall₂ (fun x y => (x.1 == y.1) = true ∧ (x.2 == y.2) = true) as cs)) ∧
    (∀ as bs : Fields, (record as).WellFormed → (record bs).WellFormed →
      ((record as == record bs) = true ↔ ∀ name, (as.get? name == bs.get? name) = true)) := by
  have hequates := equates_wellFormed
  refine ⟨⟨fun a => ?_, fun {a b} => ?_, fun {a b c} => ?_⟩, fun as bs has hbs => ?_,
    fun as bs has hbs => ?_⟩
  · exact hequates.refl a.2
  · exact hequates.symm a.2 b.2
  · exact hequates.trans a.2 b.2 c.2
  · exact hequates.map_iff has.parts hbs.parts
  · exact hequates.record_iff has.parts hbs.parts

def twoReadings (place place' : String) (word word' : BitVec 64) : Entries :=
  [(.text place, .num ⟨.float64, word⟩), (.text place', .num ⟨.float64, word'⟩)]

theorem wellFormed_readings {place place' : String} (h : place ≠ place') (word word' : BitVec 64) :
    (map (twoReadings place place' word word')).WellFormed := by
  have hkeys : (twoReadings place place' word word').DistinctKeys :=
    List.pairwise_pair.mpr (decide_eq_false h)
  exact .map hkeys (by simp [twoReadings, WellFormed.text]) (by simp [twoReadings, WellFormed.num])

/-- Readings in either order, one of them no number, as maps and inside of records whose fields are
in either order, too. -/
theorem beq_equivalence_readings :
    let east := twoReadings "east" "west" 0x7ff8000000000000 0
    let west := twoReadings "west" "east" 0 0x7ff8000000000000
    let front : Fields := [("Unit", .absent), ("Readings", .map east)]
    let back : Fields := [("Readings", .map west), ("Unit", .absent)]
    (map east).WellFormed ∧ (map west).WellFormed ∧ (record front).WellFormed ∧
    (record back).WellFormed ∧
    (∃ cs : Entries, cs.Perm west ∧
      List.Forall₂ (fun x y => (x.1 == y.1) = true ∧ (x.2 == y.2) = true) east cs) ∧
    ∀ name, (front.get? name == back.get? name) = true := by
  intro east west front back
  have heast : (map east).WellFormed := wellFormed_readings (by decide) _ _
  have hwest : (map west).WellFormed := wellFormed_readings (by decide) _ _
  have hfront : (record front).WellFormed :=
    .record (by decide) (by simp [front, heast, WellFormed.absent])
  have hback : (record back).WellFormed :=
    .record (by decide) (by simp [back, hwest, WellFormed.absent])
  obtain ⟨-, hmap, hrecord⟩ := beq_equivalence
  exact ⟨heast, hwest, hfront, hback, (hmap east west heast hwest).mp (by decide +kernel),
    (hrecord front back hfront hback).mp (by decide +kernel)⟩

end SchemaWire.Value
