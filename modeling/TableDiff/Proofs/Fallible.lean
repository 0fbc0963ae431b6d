import Mathlib.Tactic

/-!
# Computations that may fail

A sequence of steps succeeds when every step does, and fails with the first failure.  The lemmas
below take apart a step and its continuation, and a traversal of a list, so that later proofs only
see the results of the single steps.
-/

namespace TableDiff

variable {ε α β : Type}

theorem bind_eq_ok_iff
    {x : Except ε α} {f : α → Except ε β} {b : β} :
    x >>= f = .ok b ↔ ∃ a, x = .ok a ∧ f a = .ok b := by
  cases x with
  | error e => simp [bind, Except.bind]
  | ok a => simp [bind, Except.bind]

theorem bind_eq_error_iff
    {x : Except ε α} {f : α → Except ε β} {e : ε} :
    x >>= f = .error e ↔ x = .error e ∨ ∃ a, x = .ok a ∧ f a = .error e := by
  cases x with
  | error e' => simp [bind, Except.bind]
  | ok a => simp [bind, Except.bind]

@[simp] theorem ok_bind (a : α) (f : α → Except ε β) : Except.ok a >>= f = f a := rfl

@[simp] theorem error_bind (e : ε) (f : α → Except ε β) :
    Except.error e >>= f = .error e := rfl

theorem mapError_eq_ok_iff {ε' : Type} {x : Except ε α} {f : ε → ε'} {a : α} :
    x.mapError f = .ok a ↔ x = .ok a := by
  cases x with
  | ok b => simp [Except.mapError]
  | error e => simp [Except.mapError]

/-- What has no failure has a result. -/
theorem exists_eq_ok_of_ne_error {x : Except ε α} (h : ∀ e, x ≠ .error e) : ∃ a, x = .ok a := by
  cases x with
  | ok a => exact ⟨a, rfl⟩
  | error e => exact absurd rfl (h e)

theorem mapM_eq_ok_iff {f : α → Except ε β} {l : List α} {r : List β} :
    l.mapM f = .ok r ↔ List.Forall₂ (fun a b => f a = .ok b) l r := by
  induction l generalizing r with
  | nil =>
      rw [List.mapM_nil, List.forall₂_nil_left_iff]
      constructor
      · intro h
        cases h
        rfl
      · rintro rfl
        rfl
  | cons a l ih =>
      rw [List.mapM_cons, bind_eq_ok_iff, List.forall₂_cons_left_iff]
      constructor
      · rintro ⟨b, hb, hrest⟩
        rcases bind_eq_ok_iff.mp hrest with ⟨bs, hbs, hr⟩
        cases hr
        exact ⟨b, bs, hb, ih.mp hbs, rfl⟩
      · rintro ⟨b, bs, hb, hbs, rfl⟩
        exact ⟨b, hb, bind_eq_ok_iff.mpr ⟨bs, ih.mpr hbs, rfl⟩⟩

/-- A traversal fails with the first failure. -/
theorem mapM_eq_error_iff {f : α → Except ε β} {l : List α} {e : ε} :
    l.mapM f = .error e ↔
      ∃ (i : Nat) (a : α), l[i]? = some a ∧ f a = .error e ∧
        ∀ j < i, ∀ b, l[j]? = some b → ∃ r, f b = .ok r := by
  induction l with
  | nil =>
      rw [List.mapM_nil]
      constructor
      · intro h
        cases h
      · rintro ⟨_, _, ha, _⟩
        cases ha
  | cons head l ih =>
      rw [List.mapM_cons, bind_eq_error_iff]
      constructor
      · rintro (hhead | ⟨r, hr, hrest⟩)
        · refine ⟨0, head, rfl, hhead, ?_⟩
          intro j hj
          exact absurd hj (Nat.not_lt_zero j)
        · rcases bind_eq_error_iff.mp hrest with hrest | ⟨_, _, hpure⟩
          · obtain ⟨i, a, ha, hfail, hbefore⟩ := ih.mp hrest
            refine ⟨i + 1, a, ha, hfail, ?_⟩
            rintro (_ | j) hj b hb
            · cases hb
              exact ⟨r, hr⟩
            · exact hbefore j (Nat.lt_of_succ_lt_succ hj) b hb
          · cases hpure
      · rintro ⟨_ | i, a, ha, hfail, hbefore⟩
        · cases ha
          exact .inl hfail
        · obtain ⟨r, hr⟩ := hbefore 0 (Nat.succ_pos i) head rfl
          have htail : l.mapM f = .error e := by
            apply ih.mpr
            refine ⟨i, a, ha, hfail, ?_⟩
            intro j hj b hb
            exact hbefore (j + 1) (Nat.succ_lt_succ hj) b hb
          exact .inr ⟨r, hr, bind_eq_error_iff.mpr (.inl htail)⟩

theorem exists_of_mapM_eq_error {f : α → Except ε β} {l : List α} {e : ε}
    (h : l.mapM f = .error e) : ∃ a ∈ l, f a = .error e := by
  obtain ⟨i, a, ha, hfail, _⟩ := mapM_eq_error_iff.mp h
  exact ⟨a, List.mem_of_getElem? ha, hfail⟩

theorem exists_mapM_eq_ok {f : α → Except ε β} {l : List α}
    (h : ∀ a ∈ l, ∃ b, f a = .ok b) : ∃ r, l.mapM f = .ok r := by
  apply exists_eq_ok_of_ne_error
  intro e hl
  rcases exists_of_mapM_eq_error hl with ⟨a, ha, hfail⟩
  rcases h a ha with ⟨b, hb⟩
  cases hfail.symm.trans hb

theorem mapM_eq_ok_map {f : α → Except ε β} {g : α → β} {l : List α}
    (h : ∀ a ∈ l, f a = .ok (g a)) : l.mapM f = .ok (l.map g) := by
  rw [mapM_eq_ok_iff, List.forall₂_map_right_iff, List.forall₂_same]
  exact h

theorem getElem?_of_mapM_eq_ok {f : α → Except ε β} {l : List α} {r : List β}
    (h : l.mapM f = .ok r) {i : Nat} {b : β} :
    r[i]? = some b ↔ ∃ a, l[i]? = some a ∧ f a = .ok b := by
  have hall := mapM_eq_ok_iff.mp h
  have hlength := hall.length_eq
  constructor
  · intro hb
    have hi := (List.getElem?_eq_some_iff.mp hb).1
    have hil : i < l.length := by omega
    refine ⟨l[i], List.getElem?_eq_getElem hil, ?_⟩
    rw [← (List.getElem?_eq_some_iff.mp hb).2]
    exact hall.get hil hi
  · intro hex
    rcases hex with ⟨a, ha, hb⟩
    have hil := (List.getElem?_eq_some_iff.mp ha).1
    have hi : i < r.length := by omega
    have hok : f l[i] = .ok r[i] := hall.get hil hi
    rw [(List.getElem?_eq_some_iff.mp ha).2, hb] at hok
    rw [List.getElem?_eq_getElem hi, Except.ok.inj hok]

theorem mem_of_mapM_eq_ok_iff {f : α → Except ε β} {l : List α} {r : List β}
    (h : l.mapM f = .ok r) {b : β} :
    b ∈ r ↔ ∃ a ∈ l, f a = .ok b := by
  simp only [List.mem_iff_getElem?, getElem?_of_mapM_eq_ok h]
  constructor
  · rintro ⟨i, a, ha, hb⟩
    exact ⟨a, ⟨i, ha⟩, hb⟩
  · rintro ⟨a, ⟨i, ha⟩, hb⟩
    exact ⟨i, a, ha, hb⟩

theorem exists_eq_ok_of_mapM_eq_ok {f : α → Except ε β} {l : List α} {r : List β}
    (h : l.mapM f = .ok r) {a : α} (ha : a ∈ l) : ∃ b, f a = .ok b := by
  obtain ⟨i, hi, rfl⟩ := List.mem_iff_getElem.mp ha
  have hall := mapM_eq_ok_iff.mp h
  exact ⟨_, hall.get hi (hall.length_eq ▸ hi)⟩

/-- Where all failures are one error, a traversal that meets one fails with it. -/
theorem mapM_eq_error {f : α → Except ε β} {l : List α} {a : α} {e : ε} (ha : a ∈ l)
    (hfail : f a = .error e) (honly : ∀ b ∈ l, ∀ e', f b = .error e' → e' = e) :
    l.mapM f = .error e := by
  cases hl : l.mapM f with
  | error e' =>
      obtain ⟨b, hb, hbfail⟩ := exists_of_mapM_eq_error hl
      rw [honly b hb e' hbfail]
  | ok r =>
      obtain ⟨b, hb⟩ := exists_eq_ok_of_mapM_eq_ok hl ha
      cases hfail.symm.trans hb

theorem length_of_mapM_eq_ok {f : α → Except ε β} {l : List α} {r : List β}
    (h : l.mapM f = .ok r) : r.length = l.length :=
  (mapM_eq_ok_iff.mp h).length_eq.symm

end TableDiff
