import SchemaWire.Proofs.Codec.RoundTrip
import SchemaWire.Proofs.Static.Agreement

/-!
Static values come back from the wire. A value whose lengths have a prefix is read back from its
encoding, whatever follows it, and reading stops where the encoding ends. No order of the entries of
a table is refused: a listed table is read as it was listed, and a sorted one is the same table
whatever order its entries come in.
-/

namespace SchemaWire

/-! ### Tables from their entries -/

section Entries

variable {κ ν : Type}

theorem Table.eq_of_entries {table table' : Table κ ν} (h : table.entries = table'.entries) :
    table = table' := by
  cases table
  cases table'
  cases h
  rfl

variable [Ord κ]

theorem SortedTable.eq_of_entries {table table' : SortedTable κ ν}
    (h : table.entries = table'.entries) : table = table' := by
  cases table
  cases table'
  cases h
  rfl

variable [Std.LawfulEqOrd κ]

namespace Table

theorem set_of_new {key : κ} {value : ν} {es : List (κ × ν)} (h : key ∉ es.map (·.1)) :
    set key value es = es ++ [(key, value)] := by
  fun_induction set key value es with
  | case1 => rfl
  | case2 k v es heq =>
      obtain rfl := Std.LawfulEqCmp.eq_of_compare heq
      exact absurd List.mem_cons_self h
  | case3 k v es hne ih =>
      rw [ih fun hmem => h (List.mem_cons_of_mem k hmem)]
      rfl

theorem entries_ofList {es : List (κ × ν)} (h : (es.map (·.1)).Nodup) :
    (ofList es).entries = es := by
  suffices hfold : ∀ (es : List (κ × ν)) (table : Table κ ν),
      ((table.entries ++ es).map (·.1)).Nodup →
        (es.foldl (fun table e => table.insert e.1 e.2) table).entries = table.entries ++ es by
    exact hfold es empty h
  intro es
  induction es with
  | nil => simp
  | cons e es ih =>
      intro table h
      have hnew : e.1 ∉ table.entries.map (·.1) := by
        rw [List.map_append, List.nodup_append] at h
        exact fun hmem => h.2.2 _ hmem _ List.mem_cons_self rfl
      have hinsert : (table.insert e.1 e.2).entries = table.entries ++ [e] := set_of_new hnew
      rw [List.foldl_cons, ih, hinsert, ← List.append_cons]
      rwa [hinsert, ← List.append_cons]

theorem ofList_entries (table : Table κ ν) : ofList table.entries = table :=
  eq_of_entries (entries_ofList table.distinct)

end Table

namespace SortedTable

variable [Std.TransOrd κ]

theorem ofList_of_perm {table : SortedTable κ ν} {es : List (κ × ν)}
    (h : es.Perm table.entries) : ofList es = table := by
  have hdistinct : (es.map (·.1)).Nodup :=
    (h.map _).nodup_iff.mpr (nodup_of_sorted table.sorted)
  have hperm : (ofList es).entries.Perm table.entries := by
    have hlisted := ofList_perm es
    rw [Table.entries_ofList hdistinct] at hlisted
    exact hlisted.trans h
  have hsorted (table : SortedTable κ ν) :
      table.entries.Pairwise fun a b => compare a.1 b.1 = .lt := List.pairwise_map.mp table.sorted
  refine eq_of_entries (hperm.eq_of_pairwise (fun a b _ _ hab hba => ?_) (hsorted _) (hsorted _))
  exact absurd (Std.TransCmp.lt_trans hab hba) (not_lt_self a.1)

end SortedTable

end Entries

/-! ### The bytes of a value -/

/-- The bytes of the items of a list, one item after the other. -/
inductive EachWritten {α : Type} (item : α → Bytes → Prop) : List α → Bytes → Prop where
  | nil : EachWritten item [] []
  | cons {a : α} {as : List α} {front back : Bytes} :
      item a front → EachWritten item as back → EachWritten item (a :: as) (front ++ back)

def EntryWritten {α β : Type} (key : α → Bytes → Prop) (value : β → Bytes → Prop) (e : α × β)
    (bs : Bytes) : Prop :=
  ∃ front back, bs = front ++ back ∧ key e.1 front ∧ value e.2 back

namespace StaticType

/-- Whether bytes are those of a value. The entries of a listed table come as they are listed, those
of a sorted one in any order. -/
def Written : (t : StaticType) → t.Carrier → Bytes → Prop
  | .num k, x, bs => bs = Bytes.littleEndian k.width x.toNat
  | .bool, b, bs => bs = [if b then 1 else 0]
  | .string, s, bs => bs = Bytes.ofLength (Text.utf8 s).length ++ Text.utf8 s
  | .bytes, x, bs => bs = Bytes.ofLength x.length ++ x
  | .option _, none, bs => bs = [0]
  | .option t, some x, bs => ∃ body, bs = [1] ++ body ∧ t.Written x body
  | .array _ t, items, bs => EachWritten t.Written items.val bs
  | .list t, items, bs =>
    ∃ body, bs = Bytes.ofLength items.length ++ body ∧ EachWritten t.Written items body
  | .table k v, x, bs =>
    ∃ body, bs = Bytes.ofLength x.entries.length ++ body ∧
      EachWritten (EntryWritten k.Written v.Written) x.entries body
  | .sortedTable k v, x, bs =>
    ∃ es body, es.Perm x.entries ∧ bs = Bytes.ofLength es.length ++ body ∧
      EachWritten (EntryWritten k.Written v.Written) es body

/-- The same value, but for the order in which its tables are listed. -/
def Relisted (t : StaticType) (x y : t.Carrier) : Prop := t.Corresponds x (t.toValue y)

def Short (t : StaticType) (x : t.Carrier) : Prop := (t.toValue x).short = true

theorem short_array {n : Nat} {t : StaticType} {items : (array n t).Carrier} :
    (array n t).Short items ↔ ∀ x ∈ items.val, t.Short x :=
  Value.shortItems_iff.trans List.forall_mem_map

theorem short_list {t : StaticType} {items : List t.Carrier} :
    (list t).Short items ↔ items.length < 2 ^ 63 ∧ ∀ x ∈ items, t.Short x := by
  rw [Short, toValue, Value.short, Bool.and_eq_true, decide_eq_true_eq, List.length_map,
    Value.shortItems_iff, List.forall_mem_map]
  rfl

theorem short_entries {k v : StaticType} {es : List (k.Carrier × v.Carrier)} :
    (Value.map (es.map fun e => (k.toValue e.1, v.toValue e.2))).short = true ↔
      es.length < 2 ^ 63 ∧ ∀ e ∈ es, k.Short e.1 ∧ v.Short e.2 := by
  rw [Value.short, Bool.and_eq_true, decide_eq_true_eq, List.length_map, Value.shortEntries_iff,
    List.forall_mem_map]
  rfl

/-! ### Writing -/

theorem eachWritten_of_emit {α β : Type} {emission : β → Emission} {f : α → β}
    {item : α → Bytes → Prop} {as : List α}
    (hitem : ∀ a {bs}, emission (f a) = .done bs → item a bs) {bs : Bytes}
    (h : Emission.each emission (as.map f) = .done bs) : EachWritten item as bs := by
  induction as generalizing bs with
  | nil =>
      obtain rfl := Emission.done_inj.mp h
      exact .nil
  | cons a as ih =>
      obtain ⟨front, back, hfront, hback, rfl⟩ := Emission.andThen_eq_done.mp h
      exact .cons (hitem a hfront) (ih hback)

theorem eachWritten_entries_of_emit {k v : StaticType}
    (hk : ∀ {a : k.Carrier} {bs}, k.schema.emit (k.toValue a) = .done bs → k.Written a bs)
    (hv : ∀ {b : v.Carrier} {bs}, v.schema.emit (v.toValue b) = .done bs → v.Written b bs)
    {es : List (k.Carrier × v.Carrier)} {bs : Bytes}
    (h : Emission.each (Schema.emitEntry k.schema v.schema)
      (es.map fun e => (k.toValue e.1, v.toValue e.2)) = .done bs) :
    EachWritten (EntryWritten k.Written v.Written) es bs := by
  refine eachWritten_of_emit (fun e bs he => ?_) h
  obtain ⟨front, back, hfront, hback, rfl⟩ := Emission.andThen_eq_done.mp he
  exact ⟨front, back, rfl, hk hfront, hv hback⟩

theorem written_of_emit {t : StaticType} {x : t.Carrier} {bs : Bytes}
    (h : t.schema.emit (t.toValue x) = .done bs) : t.Written x bs := by
  induction t generalizing bs with
  | num k =>
      obtain ⟨w, hw, rfl⟩ := Schema.emit_num_eq_done.mp h
      cases hw
      rfl
  | bool =>
      obtain ⟨b, hb, rfl⟩ := Schema.emit_bool_eq_done.mp h
      cases hb
      rfl
  | string =>
      obtain ⟨s, hs, rfl⟩ := Schema.emit_string_eq_done.mp h
      cases hs
      rfl
  | bytes =>
      obtain ⟨body, hbody, rfl⟩ := Schema.emit_bytes_eq_done.mp h
      cases hbody
      rfl
  | option t ih =>
      cases x with
      | none =>
          obtain ⟨-, rfl⟩ | ⟨_, _, ⟨⟩, _⟩ := Schema.emit_optional_eq_done.mp h
          rfl
      | some x =>
          obtain ⟨⟨⟩, _⟩ | ⟨_, back, ⟨⟩, hback, rfl⟩ := Schema.emit_optional_eq_done.mp h
          exact ⟨back, rfl, ih hback⟩
  | array n t ih =>
      obtain ⟨_, ⟨⟩, -, hitems⟩ := Schema.emit_array_eq_done.mp h
      exact eachWritten_of_emit (fun _ _ => ih) hitems
  | list t ih =>
      obtain ⟨_, body, ⟨⟩, hitems, rfl⟩ := Schema.emit_sequence_eq_done.mp h
      rw [List.length_map]
      exact ⟨body, rfl, eachWritten_of_emit (fun _ _ => ih) hitems⟩
  | table k v ihk ihv =>
      obtain ⟨_, body, ⟨⟩, hentries, rfl⟩ := Schema.emit_map_eq_done.mp h
      rw [List.length_map]
      exact ⟨body, rfl, eachWritten_entries_of_emit ihk ihv hentries⟩
  | sortedTable k v ihk ihv =>
      obtain ⟨_, body, ⟨⟩, hentries, rfl⟩ := Schema.emit_map_eq_done.mp h
      rw [List.length_map]
      exact ⟨_, body, .refl _, rfl, eachWritten_entries_of_emit ihk ihv hentries⟩

/-- What is encoded is written, each sorted table in its order. -/
theorem written_encode (t : StaticType) (x : t.Carrier) : t.Written x (t.encode x) :=
  written_of_emit (Schema.encode_eq_ok.mp (encode_toValue t x))

/-! ### Reading -/

open Reader Stateful

theorem chain_of_eachWritten {α : Type} {item : Reader α} {written : α → Bytes → Prop}
    {as : List α}
    (hitem : ∀ a ∈ as, ∀ {bs c c'}, written a bs → Cursor.Passed c bs c' → item c = .ok a c')
    {bs : Bytes} {c c' : Cursor} (hwritten : EachWritten written as bs) (hpassed : c.Passed bs c') :
    Chain item c as c' := by
  induction hwritten generalizing c with
  | nil =>
      obtain rfl := Cursor.passed_nil.mp hpassed
      exact .nil _
  | @cons a as front back hfront _ ih =>
      obtain ⟨mid, hpassed, hpassed'⟩ := Cursor.passed_append.mp hpassed
      exact .cons (hitem a List.mem_cons_self hfront hpassed)
        (ih (fun x hx => hitem x (List.mem_cons_of_mem a hx)) hpassed')

theorem exactly_of_times {α : Type} {item : Reader α} {n : Nat}
    {as : { as : List α // as.length = n }} {c c' : Cursor}
    (h : times item n c = .ok as.val c') : exactly item n c = .ok as c' := by
  obtain ⟨as', hexactly, hsame⟩ := (agree_exactly (Agree.refl item) n).exists_of_ok_right h
  rw [List.forall₂_eq_eq_eq] at hsame
  rw [hexactly, Subtype.ext hsame]

theorem exists_of_counted {α : Type} {item : Reader α} {written : α → Bytes → Prop} {as : List α}
    (hitem : ∀ a ∈ as, ∀ {bs c c'}, written a bs → Cursor.Passed c bs c' → item c = .ok a c')
    (hlength : as.length < 2 ^ 63) {body : Bytes} {c c' : Cursor}
    (hwritten : EachWritten written as body)
    (hpassed : c.Passed (Bytes.ofLength as.length ++ body) c') :
    ∃ mid, gatedLength [] c = .ok as.length mid ∧ times item as.length mid = .ok as c' := by
  obtain ⟨mid, hprefix, hbody⟩ := Cursor.passed_append.mp hpassed
  exact ⟨mid, gatedLength_eq_ok.mpr ⟨rfl, hlength, hprefix⟩,
    times_eq_ok.mpr ⟨rfl, chain_of_eachWritten hitem hwritten hbody⟩⟩

def readEntry (k v : StaticType) : Reader (k.Carrier × v.Carrier) := do
  return (← k.read [], ← v.read [])

/-- The type reads back what is written of a value, if its lengths have a prefix. -/
def ReadsBack (t : StaticType) : Prop :=
  ∀ {x : t.Carrier} {bs : Bytes} {c c' : Cursor},
    t.Short x → t.Written x bs → c.Passed bs c' → t.read [] c = .ok x c'

theorem readEntry_of_written {k v : StaticType} (hk : k.ReadsBack) (hv : v.ReadsBack)
    {e : k.Carrier × v.Carrier} (hshort : k.Short e.1 ∧ v.Short e.2) {bs : Bytes} {c c' : Cursor}
    (hwritten : EntryWritten k.Written v.Written e bs) (hpassed : c.Passed bs c') :
    readEntry k v c = .ok e c' := by
  obtain ⟨front, back, rfl, hkey, hvalue⟩ := hwritten
  obtain ⟨mid, hfront, hback⟩ := Cursor.passed_append.mp hpassed
  rw [readEntry, bind_of_ok (hk hshort.1 hkey hfront), bind_of_ok (hv hshort.2 hvalue hback)]
  rfl

theorem exists_of_entries {k v : StaticType} (hk : k.ReadsBack) (hv : v.ReadsBack)
    {listed es : List (k.Carrier × v.Carrier)} (hperm : es.Perm listed)
    (hshort : (Value.map (listed.map fun e => (k.toValue e.1, v.toValue e.2))).short = true)
    {body : Bytes} {c c' : Cursor}
    (hwritten : EachWritten (EntryWritten k.Written v.Written) es body)
    (hpassed : c.Passed (Bytes.ofLength es.length ++ body) c') :
    ∃ mid, gatedLength [] c = .ok es.length mid ∧
      times (readEntry k v) es.length mid = .ok es c' := by
  obtain ⟨hlength, hentries⟩ := short_entries.mp hshort
  rw [← hperm.length_eq] at hlength
  refine exists_of_counted (fun e he _ _ _ => ?_) hlength hwritten hpassed
  exact readEntry_of_written hk hv (hentries e (hperm.mem_iff.mp he))

theorem readsBack (t : StaticType) : t.ReadsBack := by
  -- By induction on the type; for tables, setting entries one by one that are those of a table
  -- gives back this table, and if it is sorted their order makes no difference.
  intro x bs c c' hshort hwritten hpassed
  induction t generalizing bs c c' with
  | num k =>
      obtain rfl := hwritten
      exact word_eq_ok.mpr hpassed
  | bool =>
      obtain rfl := hwritten
      exact flag_eq_ok.mpr ⟨_, hpassed, by cases x <;> rfl⟩
  | string =>
      obtain rfl := hwritten
      obtain ⟨mid, hprefix, htext⟩ := Cursor.passed_append.mp hpassed
      have hlength : (Text.utf8 x).length < 2 ^ 63 := of_decide_eq_true hshort
      exact bind_eq_ok.mpr ⟨_, mid, gatedLength_eq_ok.mpr ⟨rfl, hlength, hprefix⟩,
        text_eq_ok.mpr ⟨rfl, htext⟩⟩
  | bytes =>
      obtain rfl := hwritten
      obtain ⟨mid, hprefix, hbody⟩ := Cursor.passed_append.mp hpassed
      have hlength : List.length x < 2 ^ 63 := of_decide_eq_true hshort
      exact bind_eq_ok.mpr ⟨_, mid, gatedLength_eq_ok.mpr ⟨rfl, hlength, hprefix⟩,
        take_eq_ok.mpr ⟨rfl, hbody⟩⟩
  | option t ih =>
      cases x with
      | none =>
          obtain rfl := hwritten
          exact bind_eq_ok.mpr ⟨false, c', flag_eq_ok.mpr ⟨0, hpassed, rfl⟩, rfl⟩
      | some x =>
          obtain ⟨body, rfl, hbody⟩ := hwritten
          obtain ⟨mid, hmark, hpassed⟩ := Cursor.passed_append.mp hpassed
          have hread := ih hshort hbody hpassed
          exact bind_eq_ok.mpr ⟨true, mid, flag_eq_ok.mpr ⟨1, hmark, rfl⟩,
            bind_pure_eq_ok.mpr ⟨x, hread, rfl⟩⟩
  | array n t ih =>
      have hitems := short_array.mp hshort
      have hchain : Chain (t.read []) c x.val c' :=
        chain_of_eachWritten (fun a ha _ _ _ => ih (hitems a ha)) hwritten hpassed
      exact exactly_of_times (times_eq_ok.mpr ⟨x.property, hchain⟩)
  | list t ih =>
      obtain ⟨hlength, hitems⟩ := short_list.mp hshort
      obtain ⟨body, rfl, hbody⟩ := hwritten
      obtain ⟨mid, hcount, hread⟩ :=
        exists_of_counted (fun a ha _ _ _ => ih (hitems a ha)) hlength hbody hpassed
      exact bind_eq_ok.mpr ⟨_, mid, hcount, hread⟩
  | table k v ihk ihv =>
      obtain ⟨body, rfl, hbody⟩ := hwritten
      obtain ⟨mid, hcount, hread⟩ := exists_of_entries ihk ihv (.refl _) hshort hbody hpassed
      refine bind_eq_ok.mpr ⟨_, mid, hcount, bind_pure_eq_ok.mpr ⟨_, hread, ?_⟩⟩
      exact (Table.ofList_entries x).symm
  | sortedTable k v ihk ihv =>
      obtain ⟨es, body, hperm, rfl, hbody⟩ := hwritten
      obtain ⟨mid, hcount, hread⟩ := exists_of_entries ihk ihv hperm hshort hbody hpassed
      refine bind_eq_ok.mpr ⟨_, mid, hcount, bind_pure_eq_ok.mpr ⟨_, hread, ?_⟩⟩
      exact (SortedTable.ofList_of_perm hperm).symm

/-! ### Every order of a table -/

theorem forall_of_forall₂ {α β : Type} {R : α → β → Prop} {P : α → Prop} {Q : β → Prop}
    {as : List α} {bs : List β} (h : List.Forall₂ R as bs) (hPQ : ∀ {a b}, R a b → P a → Q b)
    (hall : ∀ a ∈ as, P a) : ∀ b ∈ bs, Q b := by
  induction h with
  | nil => exact List.forall_mem_nil _
  | cons hab _ ih =>
      obtain ⟨hhead, htail⟩ := List.forall_mem_cons.mp hall
      exact List.forall_mem_cons.mpr ⟨hPQ hab hhead, ih htail⟩

theorem short_of_entries {k v : StaticType}
    (hk : ∀ {a w}, k.Corresponds a w → k.Short a → w.short = true)
    (hv : ∀ {b w}, v.Corresponds b w → v.Short b → w.short = true)
    {listed es : List (k.Carrier × v.Carrier)} {es' : Entries} (hperm : listed.Perm es)
    (h : List.Forall₂ (EntryRel k.Corresponds v.Corresponds) es es')
    (hlength : listed.length < 2 ^ 63) (hentries : ∀ e ∈ listed, k.Short e.1 ∧ v.Short e.2) :
    (Value.map es').short = true := by
  rw [hperm.length_eq, h.length_eq] at hlength
  rw [Value.short, Bool.and_eq_true, decide_eq_true_eq, Value.shortEntries_iff]
  refine ⟨hlength, forall_of_forall₂ h (P := fun e => k.Short e.1 ∧ v.Short e.2) ?_ ?_⟩
  · rintro a b ⟨hkey, hvalue⟩ ⟨hka, hvb⟩
    exact ⟨hk hkey hka, hv hvalue hvb⟩
  · exact fun e he => hentries e (hperm.mem_iff.mpr he)

theorem short_of_corresponds {t : StaticType} {x : t.Carrier} {w : Value}
    (h : t.Corresponds x w) (hshort : t.Short x) : w.short = true := by
  induction t generalizing w with
  | num | bool | string | bytes => exact h ▸ hshort
  | option t ih =>
      cases x with
      | none => exact h ▸ hshort
      | some x =>
          obtain ⟨inner, rfl, hinner⟩ := h
          show inner.short = true
          exact ih hinner hshort
  | array n t ih =>
      obtain ⟨ws, rfl, hitems⟩ := h
      exact Value.shortItems_iff.mpr (forall_of_forall₂ hitems ih (short_array.mp hshort))
  | list t ih =>
      obtain ⟨ws, rfl, hitems⟩ := h
      obtain ⟨hlength, hall⟩ := short_list.mp hshort
      rw [hitems.length_eq] at hlength
      rw [Value.short, Bool.and_eq_true, decide_eq_true_eq, Value.shortItems_iff]
      exact ⟨hlength, forall_of_forall₂ hitems ih hall⟩
  | table k v ihk ihv | sortedTable k v ihk ihv =>
      obtain ⟨es, es', rfl, hperm, hentries⟩ := h
      obtain ⟨hlength, hall⟩ := short_entries.mp hshort
      exact short_of_entries ihk ihv hperm hentries hlength hall

theorem relisted_of_perm {k v : StaticType} {x y : (table k v).Carrier}
    (h : x.entries.Perm y.entries) : (table k v).Relisted x y :=
  ⟨y.entries, _, rfl, h, entries_correspond (corresponds_toValue k) (corresponds_toValue v) _⟩

/-- A value comes back from its encoding, whatever follows it. So it does from the encoding of the
same value with its tables listed otherwise, and with the entries of its sorted tables in any
order. -/
theorem read_encode_append {t : StaticType} {x : t.Carrier} (hshort : t.Short x) (rest : Bytes) :
    t.read [] (.start (t.encode x ++ rest)) = .ok x ⟨(t.encode x).length, rest⟩ ∧
    ∀ y, t.Relisted x y →
      t.Written y (t.encode y) ∧
      ∀ bs, t.Written y bs → t.read [] (.start (bs ++ rest)) = .ok y ⟨bs.length, rest⟩ := by
  refine ⟨t.readsBack hshort (written_encode t x) (Cursor.passed_start_append _ rest), ?_⟩
  refine fun y hy => ⟨written_encode t y, fun bs hbs => ?_⟩
  have hrelisted : t.Short y := short_of_corresponds hy hshort
  exact t.readsBack hrelisted hbs (Cursor.passed_start_append bs rest)

def shelvesType : StaticType := .table (.num .int8) (.sortedTable (.option .bool) .string)

def shelf : (StaticType.sortedTable (.option .bool) .string).Carrier :=
  ⟨[(none, "a"), (some true, "")], by decide⟩

def shelves : shelvesType.Carrier := ⟨[(7, shelf), (-1, .empty)], by decide⟩

def shelvesBack : shelvesType.Carrier := ⟨[(-1, .empty), (7, shelf)], by decide⟩

/-- What is on the shelf, in falling order. -/
def shelfInput : Bytes :=
  Bytes.ofLength 2 ++ [1, 1] ++ Bytes.ofLength 0 ++ [0] ++ Bytes.ofLength 1 ++ [97]

theorem read_encode_append_shelves :
    let input := Bytes.ofLength 2 ++ [255] ++ Bytes.ofLength 0 ++ [7] ++ shelfInput
    shelvesType.Short shelves ∧ shelvesType.Relisted shelves shelvesBack ∧
    shelvesType.read [] (.start (shelvesType.encode shelves ++ [9])) = .ok shelves ⟨46, [9]⟩ ∧
    shelvesType.Written shelvesBack input ∧
    shelvesType.read [] (.start (input ++ [9])) = .ok shelvesBack ⟨46, [9]⟩ := by
  intro input
  have hshort : shelvesType.Short shelves := by
    show (shelvesType.toValue shelves).short = true
    rfl
  have hrelisted : shelvesType.Relisted shelves shelvesBack := relisted_of_perm (.swap _ _ [])
  have hshelf : Written _ shelf shelfInput :=
    ⟨[(some true, ""), (none, "a")],
      [1, 1] ++ Bytes.ofLength 0 ++ ([0] ++ (Bytes.ofLength 1 ++ [97]) ++ []),
      .swap _ _ [], rfl,
      .cons ⟨[1, 1], _, rfl, ⟨[1], rfl, rfl⟩, rfl⟩ (.cons ⟨[0], _, rfl, rfl, rfl⟩ .nil)⟩
  have hwritten : shelvesType.Written shelvesBack input :=
    ⟨[255] ++ Bytes.ofLength 0 ++ ([7] ++ shelfInput ++ []), rfl,
      .cons ⟨[255], _, rfl, rfl, [], _, .refl _, rfl, .nil⟩ (.cons ⟨[7], _, rfl, rfl, hshelf⟩ .nil)⟩
  obtain ⟨hread, hlisted⟩ := read_encode_append hshort [9]
  have hback := (hlisted shelvesBack hrelisted).2 input hwritten
  exact ⟨hshort, hrelisted, hread, hwritten, hback⟩

theorem decodeAll_encode {t : StaticType} {x : t.Carrier} (hshort : t.Short x) :
    t.decodeAll (t.encode x) = .ok x := by
  have hread := t.readsBack hshort (written_encode t x) (Cursor.passed_start _)
  exact decodeAll_eq_ok.mpr ⟨_, hread, rfl⟩

/-- Values are told apart by their encodings. -/
theorem encode_inj {t : StaticType} {x y : t.Carrier} (hx : t.Short x) (hy : t.Short y) :
    t.encode x = t.encode y ↔ x = y := by
  constructor
  · intro h
    have hdecode := decodeAll_encode hx
    rw [h, decodeAll_encode hy] at hdecode
    exact (Except.ok.inj hdecode).symm
  · rintro rfl
    rfl

end StaticType

end SchemaWire
