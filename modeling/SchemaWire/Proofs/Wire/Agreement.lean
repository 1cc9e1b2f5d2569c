import Mathlib.Data.List.Forall2
import SchemaWire.Proofs.Wire.Reading

/-!
Readers that agree: on every input they fail alike, or they stop at the same place with results that
are related. Agreement is kept by everything that readers are put together with.
-/

namespace SchemaWire

open Stateful

variable {α α' β β' : Type} {R : α → β → Prop} {S : α' → β' → Prop}

/-- The same failure at the same cursor, or related results at the same cursor. -/
def SameOutcome (R : α → β → Prop) :
    EStateM.Result DecodeError Cursor α → EStateM.Result DecodeError Cursor β → Prop
  | .ok a c, .ok b c' => R a b ∧ c = c'
  | .error e c, .error e' c' => e = e' ∧ c = c'
  | _, _ => False

def Agree (R : α → β → Prop) (r : Reader α) (s : Reader β) : Prop :=
  ∀ c, SameOutcome R (r c) (s c)

namespace Agree

variable {r : Reader α} {s : Reader β} {f : α → Reader α'} {g : β → Reader β'}

theorem refl (r : Reader α) : Agree Eq r r := by
  intro c
  cases r c with
  | ok a c' => exact ⟨rfl, rfl⟩
  | error e c' => exact ⟨rfl, rfl⟩

theorem pure {a : α} {b : β} (h : R a b) : Agree R (pure a) (pure b) := fun _ => ⟨h, rfl⟩

/-- Both readers succeed with related results, or both fail alike. -/
theorem outcomes (h : Agree R r s) (c : Cursor) :
    (∃ a b c', r c = .ok a c' ∧ s c = .ok b c' ∧ R a b) ∨
      ∃ e c', r c = .error e c' ∧ s c = .error e c' := by
  have hsame := h c
  cases hr : r c with
  | ok a mid =>
      cases hs : s c with
      | ok b mid' =>
          rw [hr, hs] at hsame
          obtain ⟨hab, rfl⟩ := hsame
          exact .inl ⟨a, b, mid, rfl, rfl, hab⟩
      | error e mid' =>
          rw [hr, hs] at hsame
          exact hsame.elim
  | error e mid =>
      cases hs : s c with
      | ok b mid' =>
          rw [hr, hs] at hsame
          exact hsame.elim
      | error e' mid' =>
          rw [hr, hs] at hsame
          obtain ⟨rfl, rfl⟩ := hsame
          exact .inr ⟨e, mid, rfl, rfl⟩

theorem error_iff (h : Agree R r s) {c c' : Cursor} {e : DecodeError} :
    r c = .error e c' ↔ s c = .error e c' := by
  rcases h.outcomes c with ⟨a, b, mid, hr, hs, -⟩ | ⟨e', mid, hr, hs⟩
  · simp [hr, hs]
  · simp [hr, hs]

theorem exists_of_ok (h : Agree R r s) {c c' : Cursor} {a : α} (hr : r c = .ok a c') :
    ∃ b, s c = .ok b c' ∧ R a b := by
  rcases h.outcomes c with ⟨a', b, mid, hr', hs, hab⟩ | ⟨e, mid, hr', -⟩
  · rw [hr] at hr'
    cases hr'
    exact ⟨b, hs, hab⟩
  · rw [hr] at hr'
    cases hr'

theorem exists_of_ok_right (h : Agree R r s) {c c' : Cursor} {b : β} (hs : s c = .ok b c') :
    ∃ a, r c = .ok a c' ∧ R a b := by
  rcases h.outcomes c with ⟨a, b', mid, hr, hs', hab⟩ | ⟨e, mid, -, hs'⟩
  · rw [hs] at hs'
    cases hs'
    exact ⟨a, hr, hab⟩
  · rw [hs] at hs'
    cases hs'

theorem bind (hrs : Agree R r s) (hfg : ∀ {a b}, R a b → Agree S (f a) (g b)) :
    Agree S (r >>= f) (s >>= g) := by
  intro c
  rcases hrs.outcomes c with ⟨a, b, mid, hr, hs, hab⟩ | ⟨e, mid, hr, hs⟩
  · rw [bind_of_ok hr, bind_of_ok hs]
    exact hfg hab mid
  · rw [bind_of_error hr, bind_of_error hs]
    exact ⟨rfl, rfl⟩

theorem bind_same {γ : Type} {r : Reader γ} {f : γ → Reader α'} {g : γ → Reader β'}
    (h : ∀ x, Agree S (f x) (g x)) : Agree S (r >>= f) (r >>= g) :=
  (refl r).bind fun {x _} heq => heq ▸ h x

theorem map_right (hrs : Agree R r s) {f : β → β'} {T : α → β' → Prop}
    (hf : ∀ {a b}, R a b → T a (f b)) : Agree T r (do return f (← s)) := by
  rw [← bind_pure r]
  exact hrs.bind fun hab => pure (hf hab)

theorem times (h : Agree R r s) (n : Nat) :
    Agree (List.Forall₂ R) (Reader.times r n) (Reader.times s n) := by
  induction n with
  | zero => exact pure .nil
  | succ n ih => exact h.bind fun ha => ih.bind fun has => pure (.cons ha has)

theorem whole (h : Agree R r s) :
    Agree R (do let a ← r; Reader.atEnd; return a) (do let b ← s; Reader.atEnd; return b) :=
  h.bind fun hab => .bind_same fun _ => .pure hab

theorem run (h : Agree R r s) (input : Bytes) :
    (∀ e, r.run input = .error e ↔ s.run input = .error e) ∧
      ∀ a, r.run input = .ok a → ∃ b, s.run input = .ok b ∧ R a b := by
  constructor
  · intro e
    rw [Reader.run_eq_error, Reader.run_eq_error]
    exact exists_congr fun c => h.error_iff
  · intro a ha
    obtain ⟨c, hr⟩ := Reader.run_eq_ok.mp ha
    obtain ⟨b, hs, hab⟩ := h.exists_of_ok hr
    exact ⟨b, Reader.run_eq_ok.mpr ⟨c, hs⟩, hab⟩

end Agree

end SchemaWire
