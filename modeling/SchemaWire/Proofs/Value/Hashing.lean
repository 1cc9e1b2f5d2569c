import SchemaWire.Proofs.Value.Equivalence

/-!
Hash functions on values. A hash function sees nothing of a value but the data that the value feeds
it. Equal values feed the same data, well formed or not, so a key that is looked for has the hash of
every key that equals it, and keys with other hashes need not be compared with it.
-/

namespace SchemaWire.Value

theorem eq_of_feed_eq_leaf {a b : Value} (hleaf : a.isLeaf = true) (h : a.feed = b.feed) :
    a = b := by
  cases a with
  | text s | flag s | bytes s => cases b <;> simp_all [feed]
  | absent => cases b <;> simp_all [feed]
  | num n =>
      cases b with
      | num m =>
          obtain ⟨kind, word⟩ := n
          obtain ⟨kind', word'⟩ := m
          simp only [feed, List.cons.injEq, Datum.form.injEq, Form.scalar.injEq, Kind.num.injEq,
            Datum.word.injEq, and_true] at h
          obtain ⟨rfl, hword⟩ := h
          rw [BitVec.eq_of_toNat_eq hword]
      | _ => simp [feed] at h
  | _ => cases hleaf

theorem beq_self_of_leaf {a : Value} (hleaf : a.isLeaf = true) : (a == a) = true := by
  cases a with
  | text | flag | num | absent | bytes => simp [BEq.beq, equal]
  | _ => cases hleaf

theorem find?_filter_hash {η : Type} [DecidableEq η] (hash : List Datum → η) (keys : List Value)
    (key : Value) : (keys.filter fun k => hash k.feed = hash key.feed).find? (· == key) =
      keys.find? (· == key) := by
  rw [List.find?_filter]
  congr 1
  funext k
  cases heq : k == key
  · simp
  · simp [feed_eq_of_equal heq]

/-- Hashing agrees with equality. Values that are equal, well formed or not, feed a hash function
the same data; values that hold no others are equal if they do. So a key is found among those with
its hash wherever it is found among all, whatever the hash function, and the index of the entries
that are being read leads to the first key that equals the one looked for if there is one. -/
theorem feed_agrees_with_beq :
    (∀ a b : Value, (a == b) = true → a.feed = b.feed) ∧
    (∀ a b : Value, a.isLeaf = true → a.feed = b.feed → (a == b) = true) ∧
    (∀ {η : Type} [DecidableEq η] (hash : List Datum → η) (keys : List Value) (key : Value),
      (keys.filter fun k => hash k.feed = hash key.feed).find? (· == key) =
        keys.find? (· == key)) ∧
    ∀ (es : Entries) (key : Value),
      (EntryTable.ofList es).index.find? key =
        ((EntryTable.ofList es).toList.map (·.1)).findIdx? (· == key) := by
  refine ⟨fun a b h => feed_eq_of_equal h, fun a b hleaf h => ?_, find?_filter_hash,
    fun es => (EntryTable.covers_ofList es).find?⟩
  obtain rfl := eq_of_feed_eq_leaf hleaf h
  exact beq_self_of_leaf hleaf

/-- A map in another order beside a record that repeats a name, which equals a record that does not,
inside of an array that is present. -/
theorem feed_agrees_with_beq_nested :
    let x : Value × Value := (.text "x", .num ⟨.float64, 0x7ff8000000000000⟩)
    let y : Value × Value := (.text "y", .absent)
    let a : Value := .present (.array [.map [x, y], .record [("n", .absent), ("n", .absent)]])
    let b : Value := .present (.array [.map [y, x], .record [("n", .absent), ("m", .flag true)]])
    (a == b) = true ∧ a.feed = b.feed := by
  intro x y a b
  have hequal : (a == b) = true := by decide +kernel
  exact ⟨hequal, feed_agrees_with_beq.1 a b hequal⟩

end SchemaWire.Value
