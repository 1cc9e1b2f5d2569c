import SchemaWire.Value.Equality
import SchemaWire.Value.Index

/-!
Induction over values, and what equality of values leaves to a hash function: equal values feed it
the same data.
-/

namespace SchemaWire.Value

/-- Induction over values. For a container the property is known of everything in it. -/
@[elab_as_elim, induction_eliminator]
theorem induct {motive : Value → Prop}
    (text : ∀ s, motive (.text s))
    (flag : ∀ b, motive (.flag b))
    (num : ∀ n, motive (.num n))
    (absent : motive .absent)
    (present : ∀ inner, motive inner → motive (.present inner))
    (array : ∀ items, (∀ v ∈ items, motive v) → motive (.array items))
    (sequence : ∀ items, (∀ v ∈ items, motive v) → motive (.sequence items))
    (map : ∀ entries : List (Value × Value), (∀ e ∈ entries, motive e.1 ∧ motive e.2) →
      motive (.map entries))
    (bytes : ∀ bs, motive (.bytes bs))
    (record : ∀ fields : Fields, (∀ f ∈ fields, motive f.2) → motive (.record fields))
    (value : Value) : motive value :=
  Value.rec (motive_2 := fun items => ∀ v ∈ items, motive v)
    (motive_3 := fun entries => ∀ e ∈ entries, motive e.1 ∧ motive e.2)
    (motive_4 := fun fields => ∀ f ∈ fields, motive f.2)
    (motive_5 := fun e => motive e.1 ∧ motive e.2)
    (motive_6 := fun f => motive f.2)
    text flag num absent present array sequence map bytes record
    (List.forall_mem_nil _) (fun _ _ hhead htail => List.forall_mem_cons.mpr ⟨hhead, htail⟩)
    (List.forall_mem_nil _) (fun _ _ hhead htail => List.forall_mem_cons.mpr ⟨hhead, htail⟩)
    (List.forall_mem_nil _) (fun _ _ hhead htail => List.forall_mem_cons.mpr ⟨hhead, htail⟩)
    (fun _ _ hkey hvalue => ⟨hkey, hvalue⟩) (fun _ _ hvalue => hvalue) value

theorem feedItems_eq_of_equalItems {swapped : Bool} {as bs : List Value}
    (ih : ∀ a ∈ as, ∀ b, equal swapped a b = true → a.feed = b.feed)
    (h : equalItems swapped as bs = true) :
    as.length = bs.length ∧ feedItems as = feedItems bs := by
  induction as generalizing bs with
  | nil =>
      obtain rfl : bs = [] := by simpa [equalItems] using h
      exact ⟨rfl, rfl⟩
  | cons a as ihas =>
      cases bs with
      | nil => simp [equalItems] at h
      | cons b bs =>
          simp only [equalItems, Bool.and_eq_true] at h
          obtain ⟨hlen, hfeed⟩ := ihas (fun x hx => ih x (List.mem_cons_of_mem a hx)) h.2
          have hhead := ih a List.mem_cons_self b h.1
          exact ⟨congrArg (· + 1) hlen, by rw [feedItems, feedItems, hhead, hfeed]⟩

theorem feed_eq_of_equal {swapped : Bool} {a b : Value} (h : equal swapped a b = true) :
    a.feed = b.feed := by
  induction a generalizing b with
  | text s | flag s | num s | bytes s => cases b <;> simp_all [equal]
  | absent => cases b <;> simp_all [equal]
  | present inner ih =>
      cases b with
      | present inner' => rw [feed, feed, ih h]
      | _ => simp [equal] at h
  | array items ih =>
      cases b with
      | array items' =>
          obtain ⟨hlen, hfeed⟩ := feedItems_eq_of_equalItems (fun v hv _ => ih v hv) h
          rw [feed, feed, hlen, hfeed]
      | _ => simp [equal] at h
  | sequence items ih =>
      cases b with
      | sequence items' =>
          obtain ⟨hlen, hfeed⟩ := feedItems_eq_of_equalItems (fun v hv _ => ih v hv) h
          rw [feed, feed, hlen, hfeed]
      | _ => simp [equal] at h
  | map entries ih =>
      cases b with
      | map entries' =>
          simp only [equal, Bool.and_eq_true, decide_eq_true_eq] at h
          rw [feed, feed, h.1]
      | _ => simp [equal] at h
  | record fields ih =>
      cases b with
      | record fields' =>
          simp only [equal, Bool.and_eq_true, decide_eq_true_eq] at h
          rw [feed, feed, h.1]
      | _ => simp [equal] at h

end SchemaWire.Value
