/-!
Computations with a state and a failure, seen from their outcome: what has to succeed for a
sequence of steps to succeed, and which of them failed if it fails. The same for computations that
only may fail.
-/

namespace SchemaWire.Stateful

variable {ε σ α β : Type}

theorem bind_of_ok {r : EStateM ε σ α} {f : α → EStateM ε σ β} {s s' : σ} {a : α}
    (h : r s = .ok a s') : (r >>= f) s = f a s' := by
  show EStateM.bind r f s = _
  rw [EStateM.bind, h]

theorem bind_of_error {r : EStateM ε σ α} {f : α → EStateM ε σ β} {s s' : σ} {e : ε}
    (h : r s = .error e s') : (r >>= f) s = .error e s' := by
  show EStateM.bind r f s = _
  rw [EStateM.bind, h]

/-- Two sequences do the same from a state if their first parts do, and what follows does wherever
the first part succeeds. -/
theorem bind_congr_apply {r r' : EStateM ε σ α} {f f' : α → EStateM ε σ β} {s : σ}
    (h : r' s = r s) (hf : ∀ a s', r s = .ok a s' → f' a s' = f a s') :
    (r' >>= f') s = (r >>= f) s := by
  cases hr : r s with
  | ok a s' => rw [bind_of_ok hr, bind_of_ok (h.trans hr), hf a s' hr]
  | error e s' => rw [bind_of_error hr, bind_of_error (h.trans hr)]

theorem bind_eq_ok {r : EStateM ε σ α} {f : α → EStateM ε σ β} {s s'' : σ} {b : β} :
    (r >>= f) s = .ok b s'' ↔ ∃ a s', r s = .ok a s' ∧ f a s' = .ok b s'' := by
  cases h : r s with
  | ok a s' =>
      rw [bind_of_ok h]
      constructor
      · intro hf
        exact ⟨a, s', rfl, hf⟩
      · rintro ⟨_, _, ⟨⟩, hf⟩
        exact hf
  | error e s' =>
      rw [bind_of_error h]
      constructor
      · nofun
      · rintro ⟨_, _, ⟨⟩, _⟩

theorem pure_eq_ok {a b : α} {s s' : σ} :
    (pure a : EStateM ε σ α) s = .ok b s' ↔ b = a ∧ s' = s := by
  show EStateM.Result.ok a s = .ok b s' ↔ _
  rw [EStateM.Result.ok.injEq, eq_comm, @eq_comm _ s']

theorem throw_ne_ok {e : ε} {a : α} {s s' : σ} :
    (throw e : EStateM ε σ α) s ≠ .ok a s' := nofun

theorem bind_pure_eq_ok {r : EStateM ε σ α} {g : α → β} {s s' : σ} {b : β} :
    (r >>= fun a => pure (g a)) s = .ok b s' ↔ ∃ a, r s = .ok a s' ∧ b = g a := by
  simp only [bind_eq_ok, pure_eq_ok]
  constructor
  · rintro ⟨a, _, h, rfl, rfl⟩
    exact ⟨a, h, rfl⟩
  · rintro ⟨a, h, rfl⟩
    exact ⟨a, s', h, rfl, rfl⟩

theorem bind_eq_error {r : EStateM ε σ α} {f : α → EStateM ε σ β} {s s'' : σ} {e : ε} :
    (r >>= f) s = .error e s'' ↔
      r s = .error e s'' ∨ ∃ a s', r s = .ok a s' ∧ f a s' = .error e s'' := by
  cases h : r s with
  | ok a s' =>
      rw [bind_of_ok h]
      constructor
      · intro hf
        exact .inr ⟨a, s', rfl, hf⟩
      · rintro (hr | ⟨_, _, ⟨⟩, hf⟩)
        · cases hr
        · exact hf
  | error e' s' =>
      rw [bind_of_error h]
      constructor
      · rintro ⟨⟩
        exact .inl rfl
      · rintro (he | ⟨_, _, ⟨⟩, _⟩)
        cases he
        rfl

theorem pure_ne_error {a : α} {e : ε} {s s' : σ} :
    (pure a : EStateM ε σ α) s ≠ .error e s' := nofun

theorem throw_eq_error {e e' : ε} {s s' : σ} :
    (throw e : EStateM ε σ α) s = .error e' s' ↔ e' = e ∧ s' = s := by
  show EStateM.Result.error e s = .error e' s' ↔ _
  rw [EStateM.Result.error.injEq, eq_comm, @eq_comm _ s']

theorem bind_pure_eq_error {r : EStateM ε σ α} {g : α → β} {s s' : σ} {e : ε} :
    (r >>= fun a => pure (g a)) s = .error e s' ↔ r s = .error e s' := by
  rw [bind_eq_error]
  constructor
  · rintro (h | ⟨_, _, _, h⟩)
    · exact h
    · exact (pure_ne_error h).elim
  · exact .inl

theorem except_bind_eq_ok {x : Except ε α} {f : α → Except ε β} {b : β} :
    (x >>= f) = .ok b ↔ ∃ a, x = .ok a ∧ f a = .ok b := by
  cases x with
  | ok a => simp [bind, Except.bind]
  | error e => simp [bind, Except.bind]

theorem except_bind_eq_error {x : Except ε α} {f : α → Except ε β} {e : ε} :
    (x >>= f) = .error e ↔ x = .error e ∨ ∃ a, x = .ok a ∧ f a = .error e := by
  cases x with
  | ok a => simp [bind, Except.bind]
  | error e' => simp [bind, Except.bind]

theorem stateT_bind_eq_ok {x : StateT σ (Except ε) α} {f : α → StateT σ (Except ε) β} {s s'' : σ}
    {b : β} : (x >>= f) s = .ok (b, s'') ↔
      ∃ a s', x s = .ok (a, s') ∧ f a s' = .ok (b, s'') := by
  show (x s >>= fun (a, s') => f a s') = .ok (b, s'') ↔ _
  rw [except_bind_eq_ok, Prod.exists]

theorem forall_of_mapM_eq_ok {f : α → Except ε β} {as : List α} {bs : List β}
    (h : as.mapM f = .ok bs) : ∀ b ∈ bs, ∃ a ∈ as, f a = .ok b := by
  rw [← List.mapM'_eq_mapM] at h
  induction as generalizing bs with
  | nil =>
      cases h
      simp
  | cons a as ih =>
      rw [List.mapM'_cons] at h
      obtain ⟨b, hb, h⟩ := except_bind_eq_ok.mp h
      obtain ⟨bs, hbs, h⟩ := except_bind_eq_ok.mp h
      cases h
      refine List.forall_mem_cons.mpr ⟨⟨a, List.mem_cons_self, hb⟩, fun x hx => ?_⟩
      obtain ⟨y, hy, hxy⟩ := ih hbs x hx
      exact ⟨y, List.mem_cons_of_mem a hy, hxy⟩

theorem exists_of_mem_of_mapM_eq_ok {f : α → Except ε β} {as : List α} {bs : List β}
    (h : as.mapM f = .ok bs) : ∀ a ∈ as, ∃ b ∈ bs, f a = .ok b := by
  rw [← List.mapM'_eq_mapM] at h
  induction as generalizing bs with
  | nil => simp
  | cons a as ih =>
      rw [List.mapM'_cons] at h
      obtain ⟨b, hb, h⟩ := except_bind_eq_ok.mp h
      obtain ⟨bs, hbs, h⟩ := except_bind_eq_ok.mp h
      cases h
      refine List.forall_mem_cons.mpr ⟨⟨b, List.mem_cons_self, hb⟩, fun x hx => ?_⟩
      obtain ⟨y, hy, hxy⟩ := ih hbs x hx
      exact ⟨y, List.mem_cons_of_mem b hy, hxy⟩

theorem exists_of_mapM_eq_error {f : α → Except ε β} {as : List α} {e : ε}
    (h : as.mapM f = .error e) : ∃ a ∈ as, f a = .error e := by
  rw [← List.mapM'_eq_mapM] at h
  induction as with
  | nil => cases h
  | cons a as ih =>
      rw [List.mapM'_cons] at h
      rcases except_bind_eq_error.mp h with ha | ⟨b, -, h⟩
      · exact ⟨a, List.mem_cons_self, ha⟩
      rcases except_bind_eq_error.mp h with hrest | ⟨bs, -, h⟩
      · obtain ⟨x, hx, hfails⟩ := ih hrest
        exact ⟨x, List.mem_cons_of_mem a hx, hfails⟩
      · cases h

theorem exists_mapM_eq_ok_iff {f : α → Except ε β} {as : List α} :
    (∃ bs, as.mapM f = .ok bs) ↔ ∀ a ∈ as, ∃ b, f a = .ok b := by
  constructor
  · rintro ⟨bs, h⟩ a ha
    obtain ⟨b, -, hb⟩ := exists_of_mem_of_mapM_eq_ok h a ha
    exact ⟨b, hb⟩
  · intro h
    simp only [← List.mapM'_eq_mapM]
    induction as with
    | nil => exact ⟨[], rfl⟩
    | cons a as ih =>
        obtain ⟨⟨b, hb⟩, hrest⟩ := List.forall_mem_cons.mp h
        obtain ⟨bs, hbs⟩ := ih hrest
        exact ⟨b :: bs, by rw [List.mapM'_cons, hb, hbs]; rfl⟩

theorem mapM_eq_ok_mono {f g : α → Except ε β} {as : List α} {bs : List β}
    (h : as.mapM f = .ok bs) (hfg : ∀ {a b}, f a = .ok b → g a = .ok b) : as.mapM g = .ok bs := by
  rw [← List.mapM'_eq_mapM] at h ⊢
  induction as generalizing bs with
  | nil => exact h
  | cons a as ih =>
      rw [List.mapM'_cons] at h
      obtain ⟨b, hb, h⟩ := except_bind_eq_ok.mp h
      obtain ⟨bs, hbs, h⟩ := except_bind_eq_ok.mp h
      rw [List.mapM'_cons, hfg hb, ih hbs]
      exact h

/-- Two passes, of which a third function sees what they make of an item. -/
theorem mapM_eq_ok_of_passes {γ δ : Type} {f : α → Except ε β} {g : β → Except ε γ}
    {h : α → Except ε δ} {k : γ → δ} {as : List α} {bs : List β} {cs : List γ}
    (hf : as.mapM f = .ok bs) (hg : bs.mapM g = .ok cs)
    (hk : ∀ {a b c}, f a = .ok b → g b = .ok c → h a = .ok (k c)) :
    as.mapM h = .ok (cs.map k) := by
  rw [← List.mapM'_eq_mapM] at hf hg ⊢
  induction as generalizing bs cs with
  | nil =>
      cases hf
      cases hg
      rfl
  | cons a as ih =>
      rw [List.mapM'_cons] at hf
      obtain ⟨b, hb, hf⟩ := except_bind_eq_ok.mp hf
      obtain ⟨bs, hbs, hf⟩ := except_bind_eq_ok.mp hf
      cases hf
      rw [List.mapM'_cons] at hg
      obtain ⟨c, hc, hg⟩ := except_bind_eq_ok.mp hg
      obtain ⟨cs, hcs, hg⟩ := except_bind_eq_ok.mp hg
      cases hg
      rw [List.mapM'_cons, hk hb hc, ih hbs hcs]
      rfl

/-- Items that differ in some respect have results that differ in another, if equal results come
from equal items. -/
theorem nodup_of_mapM_eq_ok {γ δ : Type} {f : α → Except ε β} {as : List α} {bs : List β}
    {p : α → γ} {q : β → δ} (h : as.mapM f = .ok bs) (hnodup : (as.map p).Nodup)
    (hpq : ∀ {a a' b b'}, f a = .ok b → f a' = .ok b' → q b = q b' → p a = p a') :
    (bs.map q).Nodup := by
  rw [← List.mapM'_eq_mapM] at h
  induction as generalizing bs with
  | nil =>
      cases h
      exact List.nodup_nil
  | cons a as ih =>
      rw [List.mapM'_cons] at h
      obtain ⟨b, hb, h⟩ := except_bind_eq_ok.mp h
      obtain ⟨bs, hbs, h⟩ := except_bind_eq_ok.mp h
      cases h
      rw [List.map_cons, List.nodup_cons] at hnodup ⊢
      refine ⟨fun hmem => hnodup.1 ?_, ih hbs hnodup.2⟩
      obtain ⟨b', hb', hq⟩ := List.mem_map.mp hmem
      rw [List.mapM'_eq_mapM] at hbs
      obtain ⟨a', ha', hab⟩ := forall_of_mapM_eq_ok hbs b' hb'
      rw [← hpq hab hb hq]
      exact List.mem_map_of_mem ha'

theorem flatMap_of_mapM_eq_ok {f : α → Except ε β} {as : List α} {bs : List β} {γ : Type}
    {g : β → List γ} {g' : α → List γ} (h : as.mapM f = .ok bs)
    (hg : ∀ {a b}, f a = .ok b → g b = g' a) : bs.flatMap g = as.flatMap g' := by
  rw [← List.mapM'_eq_mapM] at h
  induction as generalizing bs with
  | nil =>
      cases h
      rfl
  | cons a as ih =>
      rw [List.mapM'_cons] at h
      obtain ⟨b, hb, h⟩ := except_bind_eq_ok.mp h
      obtain ⟨bs, hbs, h⟩ := except_bind_eq_ok.mp h
      cases h
      rw [List.flatMap_cons, List.flatMap_cons, hg hb, ih hbs]

end SchemaWire.Stateful
