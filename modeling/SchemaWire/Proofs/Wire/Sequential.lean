import SchemaWire.Proofs.Wire.Reading

/-!
Readers that take their input as it comes. Such a reader either runs out of input, or what it does
is settled by the bytes that it consumes: they lead to the same outcome whatever follows them, and
on a shorter part of them the reader runs out. The primitive readers are of this sort, and so is
everything that is put together from them.
-/

namespace SchemaWire

open Stateful

namespace Reader

variable {α β : Type}

/-- The reader fails because it needs more bytes than are left, and says where and how many. -/
def RunsOut (r : Reader α) (c : Cursor) : Prop :=
  ∃ front stop requested, c.Passed front stop ∧ stop.remaining < requested ∧
    r c = .error (.unexpectedEnd stop.offset requested stop.remaining) stop

def stop (outcome : Except DecodeError α) (c : Cursor) : EStateM.Result DecodeError Cursor α :=
  match outcome with
  | .ok a => .ok a c
  | .error e => .error e c

def Lacking (outcome : Except DecodeError α) : Prop :=
  ∃ place requested remaining, outcome = .error (.unexpectedEnd place requested remaining)

/-- From `offset` on the bytes `front` settle the outcome, which is not a lack of input. -/
structure Settles (r : Reader α) (offset : Nat) (front : Bytes)
    (outcome : Except DecodeError α) : Prop where
  decided : ∀ rest, r ⟨offset, front ++ rest⟩ = stop outcome ⟨offset + front.length, rest⟩
  needed : ∀ part, part <+: front → part ≠ front → RunsOut r ⟨offset, part⟩
  notLacking : ¬ Lacking outcome

/-- The reader never looks ahead of the bytes that it consumes. -/
def Sequential (r : Reader α) : Prop :=
  ∀ c, RunsOut r c ∨ ∃ front outcome c', c.Passed front c' ∧ Settles r c.offset front outcome

variable {r : Reader α} {f : α → Reader β} {c mid c' : Cursor}

/-! ### Running out -/

theorem RunsOut.bind (h : RunsOut r c) : RunsOut (r >>= f) c := by
  obtain ⟨front, stop, requested, hpassed, hlt, hr⟩ := h
  exact ⟨front, stop, requested, hpassed, hlt, bind_of_error hr⟩

theorem RunsOut.bind_of_ok {a : α} {front : Bytes} (hpassed : c.Passed front mid)
    (hr : r c = .ok a mid) (h : RunsOut (f a) mid) : RunsOut (r >>= f) c := by
  obtain ⟨back, stop, requested, hpassed', hlt, hf⟩ := h
  refine ⟨front ++ back, stop, requested, hpassed.trans hpassed', hlt, ?_⟩
  rw [Stateful.bind_of_ok hr]
  exact hf

theorem RunsOut.exists_error (h : RunsOut r c) : ∃ place requested remaining c',
    r c = .error (.unexpectedEnd place requested remaining) c' := by
  obtain ⟨front, c', requested, -, -, hr⟩ := h
  exact ⟨_, requested, _, c', hr⟩

/-! ### Settled outcomes -/

theorem not_lacking_ok {a : α} : ¬ Lacking (.ok a) := by
  rintro ⟨place, requested, remaining, heq⟩
  cases heq

theorem not_lacking_error {e : DecodeError} : ¬ Lacking (.error e : Except DecodeError α) ↔
    ∀ place requested remaining, e ≠ .unexpectedEnd place requested remaining := by
  simp [Lacking]

theorem settles_nil {offset : Nat} {outcome : Except DecodeError α}
    (h : ∀ rest, r ⟨offset, rest⟩ = stop outcome ⟨offset, rest⟩)
    (hlack : ¬ Lacking outcome) : Settles r offset [] outcome where
  decided := h
  needed _ hpart hne := (hne (List.prefix_nil.mp hpart)).elim
  notLacking := hlack

theorem Settles.bind_error {offset : Nat} {front : Bytes} {e : DecodeError}
    (h : Settles r offset front (.error e)) : Settles (r >>= f) offset front (.error e) where
  decided rest := bind_of_error (h.decided rest)
  needed part hpart hne := (h.needed part hpart hne).bind
  notLacking := not_lacking_error.mpr (not_lacking_error.mp h.notLacking)

theorem prefix_append_cases {part front back : Bytes} (h : part <+: front ++ back) :
    (part <+: front ∧ part ≠ front) ∨ ∃ more, part = front ++ more ∧ more <+: back := by
  rcases List.prefix_or_prefix_of_prefix h (List.prefix_append front back) with hpart | ⟨more, rfl⟩
  · by_cases hne : part = front
    · exact .inr ⟨[], by rw [hne, List.append_nil], List.nil_prefix⟩
    · exact .inl ⟨hpart, hne⟩
  · exact .inr ⟨more, rfl, (List.prefix_append_right_inj front).mp h⟩

theorem Settles.bind_ok {offset : Nat} {front back : Bytes} {a : α}
    {outcome : Except DecodeError β} (h : Settles r offset front (.ok a))
    (hf : Settles (f a) (offset + front.length) back outcome) :
    Settles (r >>= f) offset (front ++ back) outcome where
  decided rest := by
    have hr := h.decided (back ++ rest)
    rw [List.append_assoc, Stateful.bind_of_ok hr, hf.decided rest, List.length_append,
      Nat.add_assoc]
  needed part hpart hne := by
    rcases prefix_append_cases hpart with ⟨hfront, hshort⟩ | ⟨more, rfl, hmore⟩
    · exact (h.needed part hfront hshort).bind
    · have hshort : more ≠ back := fun heq => hne (by rw [heq])
      have hpassed : Cursor.Passed ⟨offset, front ++ more⟩ front ⟨offset + front.length, more⟩ :=
        ⟨rfl, rfl⟩
      exact (hf.needed more hmore hshort).bind_of_ok hpassed (h.decided more)
  notLacking := hf.notLacking

/-! ### Sequential readers -/

theorem Sequential.pure (a : α) : Sequential (pure a : Reader α) := by
  intro c
  exact .inr ⟨[], .ok a, c, Cursor.passed_nil.mpr rfl, settles_nil (fun rest => rfl) not_lacking_ok⟩

theorem Sequential.throw {e : DecodeError}
    (h : ∀ place requested remaining, e ≠ .unexpectedEnd place requested remaining) :
    Sequential (throw e : Reader α) := by
  intro c
  have hlack : ¬ Lacking (.error e : Except DecodeError α) := not_lacking_error.mpr h
  exact .inr ⟨[], .error e, c, Cursor.passed_nil.mpr rfl, settles_nil (fun rest => rfl) hlack⟩

theorem Sequential.bind (hr : Sequential r) (hf : ∀ a, Sequential (f a)) :
    Sequential (r >>= f) := by
  intro c
  rcases hr c with hout | ⟨front, outcome, mid, hpassed, hsettles⟩
  · exact .inl hout.bind
  · cases outcome with
    | error e => exact .inr ⟨front, .error e, mid, hpassed, hsettles.bind_error⟩
    | ok a =>
        have hoffset : mid.offset = c.offset + front.length := hpassed.2
        have hr : r c = .ok a mid := by
          have hdecided := hsettles.decided mid.rest
          rw [← hpassed.1, ← hoffset] at hdecided
          exact hdecided
        rcases hf a mid with hout | ⟨back, outcome, c', hpassed', hsettles'⟩
        · exact .inl (hout.bind_of_ok hpassed hr)
        · rw [hoffset] at hsettles'
          have hboth := hsettles.bind_ok hsettles'
          exact .inr ⟨front ++ back, outcome, c', hpassed.trans hpassed', hboth⟩

theorem Sequential.map {g : α → β} (hr : Sequential r) : Sequential (do return g (← r)) :=
  hr.bind fun _ => .pure _

theorem Sequential.times {item : Reader α} (h : Sequential item) (n : Nat) :
    Sequential (times item n) := by
  induction n with
  | zero => exact .pure []
  | succ n ih => exact h.bind fun a => ih.map

/-! ### What a sequential reader returns -/

theorem stop_inj {outcome outcome' : Except DecodeError α} :
    stop outcome c = stop outcome' c' ↔ outcome = outcome' ∧ c = c' := by
  cases outcome <;> cases outcome' <;> simp [stop]

/-- An outcome other than a lack of input is settled by the bytes that were consumed. -/
theorem Sequential.settles (h : Sequential r) {outcome : Except DecodeError α}
    (hr : r c = stop outcome c') (hlack : ¬ Lacking outcome) :
    ∃ front, c.Passed front c' ∧ Settles r c.offset front outcome := by
  rcases h c with ⟨front, mid, wanted, hpassed, hlt, hout⟩ | ⟨front, found, mid, hpassed, hsettles⟩
  · have heq : stop outcome c' = stop (.error _) mid := hr.symm.trans hout
    exact (hlack ⟨_, _, _, (stop_inj.mp heq).1⟩).elim
  · have hdecided := hsettles.decided mid.rest
    rw [← hpassed.1, ← hpassed.2] at hdecided
    obtain ⟨rfl, rfl⟩ := stop_inj.mp (hr.symm.trans hdecided)
    exact ⟨front, hpassed, hsettles⟩

/-- More input does not change what is read. -/
theorem Sequential.append (h : Sequential r) {a : α} (hr : r c = .ok a c') (more : Bytes) :
    r ⟨c.offset, c.rest ++ more⟩ = .ok a ⟨c'.offset, c'.rest ++ more⟩ := by
  have hstop : r c = stop (.ok a) c' := hr
  obtain ⟨front, ⟨hrest, hoffset⟩, hsettles⟩ := h.settles hstop not_lacking_ok
  have hdecided := hsettles.decided (c'.rest ++ more)
  rw [← List.append_assoc, ← hrest, ← hoffset] at hdecided
  exact hdecided

/-- A lack of input is reported with the place where it arises and the number of bytes left. -/
theorem Sequential.runsOut (h : Sequential r) {place requested remaining : Nat}
    (hr : r c = .error (.unexpectedEnd place requested remaining) c') :
    ∃ front, c.Passed front c' ∧ c'.offset = place ∧ c'.remaining = remaining ∧
      remaining < requested := by
  rcases h c with ⟨front, mid, wanted, hpassed, hlt, hout⟩ | ⟨front, found, mid, hpassed, hsettles⟩
  · rw [hr] at hout
    cases hout
    exact ⟨front, hpassed, rfl, rfl, hlt⟩
  · have hdecided := hsettles.decided mid.rest
    rw [← hpassed.1, ← hpassed.2] at hdecided
    have heq : stop (.error _) c' = stop found mid := hr.symm.trans hdecided
    exact (hsettles.notLacking ⟨_, _, _, (stop_inj.mp heq).1.symm⟩).elim

theorem eq_take_of_passed {input front : Bytes} (h : (Cursor.start input).Passed front c) :
    c.offset ≤ input.length ∧ front = input.take c.offset := by
  obtain ⟨hinput, hoffset⟩ := h
  have hinput : input = front ++ c.rest := hinput
  have hoffset : c.offset = front.length := hoffset.trans (Nat.zero_add _)
  have hlen : input.length = front.length + c.rest.length := by rw [hinput, List.length_append]
  constructor
  · omega
  · rw [hoffset, hinput, List.take_left]

/-- A settled outcome from the start of an input: it is that of every input with the same bytes up
to where the reader stops, and on every shorter part of these bytes the reader runs out. -/
theorem Sequential.settles_start (h : Sequential r) {outcome : Except DecodeError α}
    {input : Bytes} (hr : r (.start input) = stop outcome c) (hlack : ¬ Lacking outcome) :
    c.offset ≤ input.length ∧
      (∀ input', input.take c.offset <+: input' →
        r (.start input') = stop outcome ⟨c.offset, input'.drop c.offset⟩) ∧
      ∀ n < c.offset, RunsOut r (.start (input.take n)) := by
  obtain ⟨front, hpassed, hsettles⟩ := h.settles hr hlack
  obtain ⟨hle, rfl⟩ := eq_take_of_passed hpassed
  have hlen : (input.take c.offset).length = c.offset := by
    rw [List.length_take]
    omega
  refine ⟨hle, ?_, ?_⟩
  · rintro input' ⟨rest, rfl⟩
    have hdecided := hsettles.decided rest
    have hdrop : (input.take c.offset ++ rest).drop c.offset = rest := List.drop_left' hlen
    rw [hdrop]
    rw [hlen] at hdecided
    simpa [Cursor.start] using hdecided
  · intro n hn
    have hpart : input.take n <+: input.take c.offset := List.take_prefix_take_left (by omega)
    apply hsettles.needed (input.take n) hpart
    intro heq
    have hlength := congrArg List.length heq
    rw [hlen, List.length_take] at hlength
    omega

/-! ### The primitive readers -/

theorem sequential_byte : Sequential byte := by
  intro c
  rcases c with ⟨offset, _ | ⟨b, rest⟩⟩
  · exact .inl ⟨[], ⟨offset, []⟩, 1, Cursor.passed_nil.mpr rfl, Nat.one_pos, rfl⟩
  · refine .inr ⟨[b], .ok b, ⟨offset + 1, rest⟩, ⟨rfl, rfl⟩, fun more => rfl, ?_,
      not_lacking_ok⟩
    intro part hpart hne
    have hnil : part = [] := by
      have hlen := hpart.length_le
      have hshort : part.length ≠ 1 := fun heq => hne (hpart.eq_of_length heq)
      simp only [List.length_singleton] at hlen
      exact List.length_eq_zero_iff.mp (by omega)
    subst hnil
    exact ⟨[], ⟨offset, []⟩, 1, Cursor.passed_nil.mpr rfl, Nat.one_pos, rfl⟩

theorem take_of_lt {n : Nat} (h : c.remaining < n) :
    take n c = .error (.unexpectedEnd c.offset n c.remaining) c := by
  have hshort : (c.rest.take n).length < n := by
    rw [List.length_take]
    simp only [Cursor.remaining] at h
    omega
  simp only [take, if_pos hshort]

theorem take_of_le {n : Nat} (h : n ≤ c.remaining) :
    take n c = .ok (c.rest.take n) (c.advance n) := by
  have hlength : (c.rest.take n).length = n := List.length_take_of_le h
  exact if_neg (by rw [hlength]; exact Nat.lt_irrefl n)

theorem runsOut_take {n : Nat} (h : c.remaining < n) : RunsOut (take n) c :=
  ⟨[], c, n, Cursor.passed_nil.mpr rfl, h, take_of_lt h⟩

theorem sequential_take (n : Nat) : Sequential (take n) := by
  intro c
  by_cases hlt : c.remaining < n
  · exact .inl (runsOut_take hlt)
  · have hlen : (c.rest.take n).length = n := by
      rw [List.length_take]
      simp only [Cursor.remaining] at hlt
      omega
    have hpassed : c.Passed (c.rest.take n) (c.advance n) :=
      ⟨(List.take_append_drop n c.rest).symm, by rw [hlen]; rfl⟩
    refine .inr ⟨c.rest.take n, .ok (c.rest.take n), c.advance n, hpassed, ?_, ?_,
      not_lacking_ok⟩
    · intro rest
      exact take_eq_ok.mpr ⟨hlen, rfl, rfl⟩
    · intro part hpart hne
      have hle := hpart.length_le
      have hshort : part.length ≠ (c.rest.take n).length := fun heq => hne (hpart.eq_of_length heq)
      apply runsOut_take
      simp only [Cursor.remaining]
      omega

theorem sequential_word (n : Nat) : Sequential (word n) := (sequential_take n).map

theorem sequential_flag : Sequential flag := sequential_byte.map

theorem sequential_length : Sequential length := by
  refine (sequential_word 8).bind fun u => ?_
  dsimp only
  split
  · exact .throw nofun
  · exact .pure _

theorem sequential_text (n : Nat) : Sequential (text n) := by
  refine (sequential_take n).bind fun bs => ?_
  split
  · exact .pure _
  · exact .throw nofun

theorem sequential_require (passes : Constraint → Bool) (constraints : List Constraint) :
    Sequential (require passes constraints) := by
  unfold require
  split
  · exact .throw nofun
  · exact .pure ()

theorem sequential_gatedLength (gate : List Constraint) : Sequential (gatedLength gate) :=
  sequential_length.bind fun _ => (sequential_require _ gate).bind fun _ => .pure _

end Reader

end SchemaWire
