import Mathlib.Data.List.Nodup
import SchemaWire.Proofs.Codec.Decoded

/-!
Maps whose keys are scalars, or scalars that may be absent. Such a key equals no other key, so what
a map keeps of its entries can be said without the equality of values: each key once, in order of
first occurrence, with the value of its last. All the while the index leads from each key to the
place of its entry, which is the place that a search from the front would find.
-/

namespace SchemaWire

/-! ### Keys that equal no other -/

/-- A value that equals itself and nothing else. -/
def Value.Exact (a : Value) : Prop := ∀ b, (a == b) = true ↔ a = b

namespace Value

theorem exact_text (s : String) : Exact (.text s) := by
  intro b
  cases b <;> simp [BEq.beq, equal]

theorem exact_flag (x : Bool) : Exact (.flag x) := by
  intro b
  cases b <;> simp [BEq.beq, equal]

/-- Floats are told apart by their bits. -/
theorem exact_num (n : Num) : Exact (.num n) := by
  intro b
  cases b <;> simp [BEq.beq, equal]

theorem exact_absent : Exact .absent := by
  intro b
  cases b <;> simp [BEq.beq, equal]

theorem Exact.present {inner : Value} (h : inner.Exact) : Exact (.present inner) := by
  intro b
  cases b with
  | present inner' =>
      rw [Value.present.injEq]
      exact h inner'
  | _ => simp [BEq.beq, equal]

end Value

namespace Schema

theorem exact_of_scalar {k : Kind} {name : Option String} {v : Value}
    (h : (scalar k name).Normal v) : v.Exact := by
  cases v with
  | text s => exact Value.exact_text s
  | flag x => exact Value.exact_flag x
  | num n => exact Value.exact_num n
  | _ => cases k <;> exact h.elim

/-- What is read as a key of a map of the builder equals no other value. -/
theorem exact_of_normal {key : Schema} (hkey : key.inner.scalarKind?.isSome = true) {v : Value}
    (h : key.Normal v) : v.Exact := by
  cases key with
  | scalar k name => exact exact_of_scalar h
  | optional elem =>
      cases elem with
      | scalar k name =>
          cases v with
          | absent => exact Value.exact_absent
          | present inner =>
              have hinner : (scalar k name).Normal inner := h
              exact (exact_of_scalar hinner).present
          | _ => exact h.elim
      | _ => cases hkey
  | _ => cases hkey

end Schema

/-! ### What is kept of the entries -/

/-- Among the keys on the wire, `a` has come when `b` has not come yet. -/
def FirstBefore (keys : List Value) (a b : Value) : Prop :=
  ∃ front back, keys = front ++ a :: back ∧ b ∉ front

/-- What is kept of the entries on the wire if the last of a key wins. -/
structure LastWins (wire kept : Entries) : Prop where
  distinct : (kept.map (·.1)).Nodup
  ordered : (kept.map (·.1)).Pairwise (FirstBefore (wire.map (·.1)))
  last : ∀ e ∈ kept, ∃ front back, wire = front ++ e :: back ∧ e.1 ∉ back.map (·.1)
  complete : ∀ e ∈ wire, e.1 ∈ kept.map (·.1)

theorem FirstBefore.append {keys : List Value} {a b : Value} (h : FirstBefore keys a b)
    (more : List Value) : FirstBefore (keys ++ more) a b := by
  obtain ⟨front, back, rfl, hb⟩ := h
  exact ⟨front, back ++ more, by simp, hb⟩

theorem firstBefore_of_not_mem {keys : List Value} {a b : Value} (ha : a ∈ keys) (hb : b ∉ keys)
    (more : List Value) : FirstBefore (keys ++ more) a b := by
  obtain ⟨front, back, rfl⟩ := List.append_of_mem ha
  exact ⟨front, back ++ more, by simp, fun h => hb (List.mem_append_left _ h)⟩

namespace Entries

theorem mem_set_iff {key value : Value} {es : Entries} (hexact : ∀ e ∈ es, e.1.Exact)
    (hdistinct : (es.map (·.1)).Nodup) {x : Value × Value} :
    x ∈ set key value es ↔ x = (key, value) ∨ x ∈ es ∧ x.1 ≠ key := by
  induction es with
  | nil => simp [set]
  | cons e es ih =>
      obtain ⟨hhead, htail⟩ := List.forall_mem_cons.mp hexact
      rw [List.map_cons, List.nodup_cons] at hdistinct
      unfold set
      split
      · next heq =>
        obtain rfl : e.1 = key := (hhead key).mp heq
        have hother : ∀ x ∈ es, x.1 ≠ e.1 := by
          rintro x hx hxe
          exact hdistinct.1 (hxe ▸ List.mem_map_of_mem hx)
        constructor
        · intro hx
          rcases List.mem_cons.mp hx with rfl | hx
          · exact .inl rfl
          · exact .inr ⟨List.mem_cons_of_mem _ hx, hother x hx⟩
        · rintro (rfl | ⟨hx, hne⟩)
          · exact List.mem_cons_self
          · rcases List.mem_cons.mp hx with rfl | hx
            · exact absurd rfl hne
            · exact List.mem_cons_of_mem _ hx
      · next hne =>
        have hkey : e.1 ≠ key := fun heq => hne ((hhead key).mpr heq)
        rw [List.mem_cons, ih htail hdistinct.2, List.mem_cons]
        constructor
        · rintro (rfl | rfl | ⟨hx, hxne⟩)
          · exact .inr ⟨.inl rfl, hkey⟩
          · exact .inl rfl
          · exact .inr ⟨.inr hx, hxne⟩
        · rintro (rfl | ⟨rfl | hx, hxne⟩)
          · exact .inr (.inl rfl)
          · exact .inl rfl
          · exact .inr (.inr ⟨hx, hxne⟩)

theorem any_eq_iff {key : Value} {es : Entries} (hexact : ∀ e ∈ es, e.1.Exact) :
    es.any (·.1 == key) = true ↔ key ∈ es.map (·.1) := by
  rw [List.any_eq_true, List.mem_map]
  constructor
  · rintro ⟨e, he, heq⟩
    exact ⟨e, he, (hexact e he key).mp heq⟩
  · rintro ⟨e, he, heq⟩
    exact ⟨e, he, (hexact e he key).mpr heq⟩

theorem map_fst_set_of_exact (key value : Value) {es : Entries} (hexact : ∀ e ∈ es, e.1.Exact) :
    key ∈ es.map (·.1) ∧ (set key value es).map (·.1) = es.map (·.1) ∨
      key ∉ es.map (·.1) ∧ (set key value es).map (·.1) = es.map (·.1) ++ [key] := by
  rw [map_fst_set]
  split
  · next hany => exact .inl ⟨(any_eq_iff hexact).mp hany, rfl⟩
  · next hany => exact .inr ⟨fun hkey => hany ((any_eq_iff hexact).mpr hkey), rfl⟩

end Entries

namespace LastWins

variable {wire kept : Entries}

theorem mem_wire (h : LastWins wire kept) {e : Value × Value} (he : e ∈ kept) : e ∈ wire := by
  obtain ⟨front, back, rfl, -⟩ := h.last e he
  exact List.mem_append_right front List.mem_cons_self

theorem mem_keys_iff (h : LastWins wire kept) {key : Value} :
    key ∈ kept.map (·.1) ↔ key ∈ wire.map (·.1) := by
  constructor
  · intro hkey
    obtain ⟨e, he, rfl⟩ := List.mem_map.mp hkey
    exact List.mem_map_of_mem (h.mem_wire he)
  · intro hkey
    obtain ⟨e, he, rfl⟩ := List.mem_map.mp hkey
    exact h.complete e he

theorem set (h : LastWins wire kept) (hexact : ∀ e ∈ wire, e.1.Exact) (key value : Value) :
    LastWins (wire ++ [(key, value)]) (Entries.set key value kept) := by
  have hkept : ∀ e ∈ kept, e.1.Exact := fun e he => hexact e (h.mem_wire he)
  have hkeys := Entries.map_fst_set_of_exact key value hkept
  have hmem {x : Value × Value} : x ∈ Entries.set key value kept ↔ _ :=
    Entries.mem_set_iff hkept h.distinct
  constructor
  case distinct =>
    rcases hkeys with ⟨-, hsame⟩ | ⟨hnew, hmore⟩
    · rw [hsame]
      exact h.distinct
    · rw [hmore, ← List.concat_eq_append]
      exact h.distinct.concat hnew
  case ordered =>
    have hold := h.ordered.imp fun hab => hab.append [key]
    rw [List.map_append]
    rcases hkeys with ⟨-, hsame⟩ | ⟨hnew, hmore⟩
    · rw [hsame]
      exact hold
    · rw [hmore, List.pairwise_append]
      refine ⟨hold, List.pairwise_singleton _ _, fun a ha b hb => ?_⟩
      obtain rfl := List.mem_singleton.mp hb
      exact firstBefore_of_not_mem (h.mem_keys_iff.mp ha) (fun hb => hnew (h.mem_keys_iff.mpr hb)) _
  case last =>
    intro e he
    rcases hmem.mp he with rfl | ⟨he, hne⟩
    · exact ⟨wire, [], rfl, List.not_mem_nil⟩
    · obtain ⟨front, back, rfl, hlast⟩ := h.last e he
      refine ⟨front, back ++ [(key, value)], by simp, ?_⟩
      rw [List.map_append, List.mem_append, not_or]
      exact ⟨hlast, fun heq => hne (List.mem_singleton.mp heq)⟩
  case complete =>
    intro e he
    rcases List.mem_append.mp he with he | he
    · have hkey := h.complete e he
      rcases hkeys with ⟨-, hsame⟩ | ⟨-, hmore⟩
      · rwa [hsame]
      · rw [hmore]
        exact List.mem_append_left _ hkey
    · obtain rfl := List.mem_singleton.mp he
      exact List.mem_map_of_mem (hmem.mpr (.inl rfl))

theorem foldOnto {es : Entries} (h : LastWins wire kept) (hexact : ∀ e ∈ wire ++ es, e.1.Exact) :
    LastWins (wire ++ es) (Entries.foldOnto kept es) := by
  -- What is kept so far answers for the entries that have come; a step moves one entry over.
  induction es generalizing wire kept with
  | nil => simpa using h
  | cons e es ih =>
      have hwire : ∀ x ∈ wire, x.1.Exact := fun x hx => hexact x (List.mem_append_left _ hx)
      rw [List.append_cons] at hexact ⊢
      exact ih (h.set hwire e.1 e.2) hexact

theorem fold {es : Entries} (hexact : ∀ e ∈ es, e.1.Exact) : LastWins es es.fold := by
  have hnil : LastWins [] [] :=
    ⟨List.nodup_nil, .nil, List.forall_mem_nil _, List.forall_mem_nil _⟩
  exact hnil.foldOnto hexact

end LastWins

/-! ### The index on the way -/

namespace EntryTable

/-- The index knows the place of each key, and no place of any other. -/
def Indexed (table : EntryTable) : Prop :=
  ∀ key place, table.index.find? key = some place ↔
    ∃ h : place < table.entries.size, table.entries[place].1 = key

theorem findIdx?_eq_some_iff_of_nodup {keys : List Value} (hexact : ∀ a ∈ keys, a.Exact)
    (hdistinct : keys.Nodup) {key : Value} {place : Nat} :
    keys.findIdx? (· == key) = some place ↔ ∃ h : place < keys.length, keys[place] = key := by
  have heq (i : Nat) (hi : i < keys.length) : (keys[i] == key) = true ↔ keys[i] = key :=
    hexact _ (List.getElem_mem hi) key
  rw [List.findIdx?_eq_some_iff_getElem]
  constructor
  · rintro ⟨hplace, hkey, -⟩
    exact ⟨hplace, (heq place hplace).mp hkey⟩
  · rintro ⟨hplace, hkey⟩
    refine ⟨hplace, (heq place hplace).mpr hkey, fun i hi hearlier => ?_⟩
    have hsame := ((heq i (Nat.lt_trans hi hplace)).mp hearlier).trans hkey.symm
    rw [hdistinct.getElem_inj_iff] at hsame
    exact Nat.ne_of_lt hi hsame

theorem indexed_of_covers {table : EntryTable} (hcovers : table.index.Covers table.toList)
    (hexact : ∀ e ∈ table.toList, e.1.Exact) (hdistinct : (table.toList.map (·.1)).Nodup) :
    table.Indexed := by
  intro key place
  rw [hcovers.find?, findIdx?_eq_some_iff_of_nodup (List.forall_mem_map.mpr hexact) hdistinct]
  simp only [List.getElem_map, List.length_map]
  rfl

/-- What the table is after some of the entries: those that a scan keeps, and an index of them. -/
theorem ofList_spec {es : Entries} (hexact : ∀ e ∈ es, e.1.Exact) :
    (ofList es).toList = es.fold ∧ LastWins es (ofList es).toList ∧ (ofList es).Indexed := by
  have hlist := toList_ofList es
  have hlast : LastWins es (ofList es).toList := hlist ▸ LastWins.fold hexact
  exact ⟨hlist, hlast, indexed_of_covers (covers_ofList es)
    (fun e he => hexact e (hlast.mem_wire he)) hlast.distinct⟩

end EntryTable

/-! ### Maps from the wire -/

namespace Schema

open Reader

theorem exact_of_readEntries {key val : Schema} (hkey : key.inner.scalarKind?.isSome = true)
    {n : Nat} {entries : Entries} {c c' : Cursor}
    (hentries : times (readEntry key val) n c = .ok entries c') : ∀ e ∈ entries, e.1.Exact := by
  have hchain := (times_eq_ok.mp hentries).2
  have hboth := forall_of_entries (P := Value.Exact) (Q := fun _ => True)
    (fun hread => exact_of_normal hkey (normal_of_read hread)) (fun _ => trivial) hchain
  exact fun e he => (hboth e he).1

/-- If `n` entries are announced and all of them can be read, then a map is read in which the last
entry of a key wins. It is the one that a scan of the entries for each key would make, and after any
number of entries the index finds exactly the keys there are, each in bounds and in its place. -/
theorem read_map_lastWins {key val : Schema} (hkey : key.inner.scalarKind?.isSome = true)
    (name : Option String) {gate : List Constraint} {n : Nat} {entries : Entries}
    {c start c' : Cursor} (hlength : gatedLength gate c = .ok n start)
    (hentries : times (readEntry key val) n start = .ok entries c') :
    (map key val name).read gate c = .ok (.map entries.fold) c' ∧
    LastWins entries entries.fold ∧ Entries.DistinctKeys entries.fold ∧
    (∀ e ∈ entries, ∀ k, (e.1 == k) = true ↔ e.1 = k) ∧
    ∀ done todo, entries = done ++ todo →
      (EntryTable.ofList done).toList = Entries.fold done ∧
      LastWins done (EntryTable.ofList done).toList ∧ (EntryTable.ofList done).Indexed := by
  have hexact := exact_of_readEntries hkey hentries
  obtain ⟨hannounce, hpassed⟩ := gatedLength_eq_ok_iff.mp hlength
  obtain ⟨rfl, hchain⟩ := times_eq_ok.mp hentries
  have hread : (map key val name).read gate c = .ok (.map entries.fold) c' :=
    read_map_eq_ok.mpr ⟨entries, start, rfl, hannounce, hpassed, hchain⟩
  refine ⟨hread, LastWins.fold hexact, Entries.distinct_fold entries, hexact, ?_⟩
  rintro done todo rfl
  exact EntryTable.ofList_spec fun e he => hexact e (List.mem_append_left todo he)

def gaugeKey : Schema := optional (scalar (.num .float32) none)

def reading (key : Option (BitVec 32)) (x : BitVec 8) : Value × Value :=
  (key.elim .absent fun w => .present (.num ⟨.float32, w⟩), .num ⟨.uint8, x⟩)

/-- The keys are zero, none, negative zero and no number; none, no number and zero come again. -/
def gauges : Entries :=
  [reading (some 0) 1, reading none 2, reading (some 0x80000000) 3, reading (some 0x7fc00000) 4,
    reading none 5, reading (some 0x7fc00000) 6, reading (some 0) 7]

def gaugesInput : Bytes :=
  Bytes.ofLength 7 ++ [1, 0, 0, 0, 0, 1, 0, 2, 1, 0, 0, 0, 128, 3, 1, 0, 0, 192, 127, 4, 0, 5,
    1, 0, 0, 192, 127, 6, 1, 0, 0, 0, 0, 7]

theorem read_map_lastWins_gauges :
    let gauge := scalar (.num .uint8) none
    let kept := [reading (some 0) 7, reading none 5, reading (some 0x80000000) 3,
      reading (some 0x7fc00000) 6]
    gaugeKey.inner.scalarKind?.isSome = true ∧
    gatedLength [] (.start gaugesInput) = .ok 7 ⟨8, gaugesInput.drop 8⟩ ∧
    times (readEntry gaugeKey gauge) 7 ⟨8, gaugesInput.drop 8⟩ = .ok gauges ⟨42, []⟩ ∧
    (map gaugeKey gauge none).read [] (.start gaugesInput) = .ok (.map kept) ⟨42, []⟩ ∧
    LastWins gauges kept ∧ (EntryTable.ofList (gauges.take 5)).Indexed := by
  intro gauge kept
  have hlength : gatedLength [] (.start gaugesInput) = .ok 7 ⟨8, gaugesInput.drop 8⟩ := rfl
  have hentries : times (readEntry gaugeKey gauge) 7 ⟨8, gaugesInput.drop 8⟩ =
      .ok gauges ⟨42, []⟩ := rfl
  have hfold : gauges.fold = kept := rfl
  obtain ⟨hread, hlast, -, -, htable⟩ := read_map_lastWins rfl none hlength hentries
  rw [hfold] at hread hlast
  obtain ⟨-, -, hindexed⟩ := htable (gauges.take 5) (gauges.drop 5)
    (List.take_append_drop 5 gauges).symm
  exact ⟨rfl, hlength, hentries, hread, hlast, hindexed⟩

end Schema

end SchemaWire
