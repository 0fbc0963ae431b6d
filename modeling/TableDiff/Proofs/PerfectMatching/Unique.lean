import TableDiff.Proofs.PerfectMatching
import Mathlib.Dynamics.PeriodicPts.Lemmas

/-!
# Lists with only one perfect matching

In a problem with only one solution some element has no choice.  If every element had a second
partner, one could go from each pair to the pair of that second partner, and so on; the walk comes
back to a pair, and turning the partners of this cycle by one place gives another solution.  The
same holds after some pairs of the solution have been fixed, so solving such a problem never
involves a guess.
-/

namespace TableDiff

open Function

section

variable {α : Type} {f : α → α}

open Classical in
/-- Moves every element that lies on a cycle one step on, and no other. -/
noncomputable def turnCycles (f : α → α) (a : α) : α := if a ∈ periodicPts f then f a else a

theorem turnCycles_eq (f : α → α) (a : α) : turnCycles f a = f a ∨ turnCycles f a = a := by
  unfold turnCycles
  split
  · exact .inl rfl
  · exact .inr rfl

theorem injective_turnCycles (f : α → α) : Injective (turnCycles f) := by
  intro a b hab
  have hcycles := bijOn_periodicPts f
  unfold turnCycles at hab
  split at hab <;> split at hab
  · next ha hb => exact hcycles.injOn ha hb hab
  · next ha hb => exact absurd (hab ▸ hcycles.mapsTo ha) hb
  · next ha hb => exact absurd (hab ▸ hcycles.mapsTo hb) ha
  · exact hab

/-- A walk that stays in a list comes back to one of its elements. -/
theorem exists_mem_periodicPts {l : List α} (hmaps : ∀ a ∈ l, f a ∈ l) {a : α} (ha : a ∈ l) :
    ∃ b ∈ l, b ∈ periodicPts f := by
  have hwalk : ∀ n, f^[n] a ∈ l := by
    intro n
    induction n with
    | zero => exact ha
    | succ n ih => exact iterate_succ_apply' f n a ▸ hmaps _ ih
  obtain ⟨i, _, j, _, hij, heq⟩ := Set.infinite_univ.exists_lt_map_eq_of_mapsTo
    (fun n (_ : n ∈ Set.univ) => hwalk n) l.finite_toSet
  refine ⟨f^[i] a, hwalk i, j - i, by omega, ?_⟩
  rw [IsPeriodicPt, IsFixedPt, ← iterate_add_apply, Nat.sub_add_cancel hij.le]
  exact heq.symm

theorem map_perm_of_injective {l : List α} (hl : l.Nodup) (hf : Injective f)
    (hmaps : ∀ a ∈ l, f a ∈ l) : (l.map f).Perm l := by
  have hsub : l.map f ⊆ l := by
    intro b hb
    obtain ⟨a, ha, rfl⟩ := List.mem_map.mp hb
    exact hmaps a ha
  exact (List.subperm_of_subset (hl.map hf) hsub).perm_of_length_le (by simp)

end

variable {α β : Type} {R : α → β → Prop} {xs : List α} {ys : List β} {pairs : List (α × β)}

/-- A perfect matching that has the same pairs as every other one. -/
structure OnlyMatching (R : α → β → Prop) (xs : List α) (ys : List β)
    (pairs : List (α × β)) : Prop extends PerfectMatching R xs ys pairs where
  perm_of_perfectMatching : ∀ other, PerfectMatching R xs ys other → other.Perm pairs

namespace PerfectMatching

variable {p q : α × β}

theorem eq_of_fst_eq (h : PerfectMatching R xs ys pairs) (hxs : xs.Nodup)
    (hp : p ∈ pairs) (hq : q ∈ pairs) (heq : p.1 = q.1) : p = q :=
  List.inj_on_of_nodup_map (h.left.nodup_iff.mpr hxs) hp hq heq

theorem eq_of_snd_eq (h : PerfectMatching R xs ys pairs) (hys : ys.Nodup)
    (hp : p ∈ pairs) (hq : q ∈ pairs) (heq : p.2 = q.2) : p = q :=
  List.inj_on_of_nodup_map (h.right.nodup_iff.mpr hys) hp hq heq

/-- The partners along the cycles of a walk through the pairs can be moved by one place. -/
theorem turn (h : PerfectMatching R xs ys pairs) (hxs : xs.Nodup) {next : α × β → α × β}
    (hnext : ∀ p ∈ pairs, next p ∈ pairs ∧ R p.1 (next p).2) :
    PerfectMatching R xs ys (pairs.map fun p => (p.1, (turnCycles next p).2)) := by
  have hturn : ∀ p ∈ pairs, turnCycles next p ∈ pairs ∧ R p.1 (turnCycles next p).2 := by
    intro p hp
    rcases turnCycles_eq next p with heq | heq <;> rw [heq]
    · exact hnext p hp
    · exact ⟨hp, h.related p hp⟩
  constructor
  · rw [List.map_map]
    exact h.left
  · have hpairs : pairs.Nodup := (h.left.nodup_iff.mpr hxs).of_map
    have hstays : ∀ p ∈ pairs, turnCycles next p ∈ pairs := by
      intro p hp
      exact (hturn p hp).1
    have hperm := map_perm_of_injective hpairs (injective_turnCycles next) hstays
    have hsnd := (hperm.map Prod.snd).trans h.right
    rw [List.map_map] at hsnd ⊢
    exact hsnd
  · intro q hq
    obtain ⟨p, hp, rfl⟩ := List.mem_map.mp hq
    exact (hturn p hp).2

/-- Places are determined by the elements that stand there. -/
theorem subset_of_pairsAt_subset {is js : List Nat} {places places' : List (Nat × Nat)}
    (h : PerfectMatching (RelatedAt R xs ys) is js places) (hxs : xs.Nodup) (hys : ys.Nodup)
    (hsub : TableDiff.pairsAt xs ys places ⊆ TableDiff.pairsAt xs ys places') :
    places ⊆ places' := by
  intro p hp
  obtain ⟨x, y, hx, hy, _⟩ := h.related p hp
  have hmem : (x, y) ∈ TableDiff.pairsAt xs ys places :=
    List.mem_filterMap.mpr ⟨p, hp, by simp [hx, hy]⟩
  obtain ⟨q, hq, hpair⟩ := List.mem_filterMap.mp (hsub hmem)
  have hq' : xs[q.1]? = some x ∧ ys[q.2]? = some y := by
    simpa [Option.bind_eq_some_iff] using hpair
  have hfst : p.1 = q.1 :=
    (List.getElem?_inj (List.getElem?_eq_some_iff.mp hx).1 hxs).mp (hx.trans hq'.1.symm)
  have hsnd : p.2 = q.2 :=
    (List.getElem?_inj (List.getElem?_eq_some_iff.mp hy).1 hys).mp (hy.trans hq'.2.symm)
  exact Prod.ext hfst hsnd ▸ hq

end PerfectMatching

namespace OnlyMatching

variable {p : α × β}

theorem nil : OnlyMatching R [] [] [] where
  toPerfectMatching := .nil
  perm_of_perfectMatching := by
    intro other hother
    have hlength := hother.left.length_eq
    rw [List.length_map, List.length_nil, List.length_eq_zero_iff] at hlength
    rw [hlength]

/-- An element with a single partner can be paired with it first. -/
theorem cons {x : α} {y : β} (h : OnlyMatching R xs ys pairs) (hxy : R x y)
    (hforced : ∀ y' ∈ ys, ¬R x y') : OnlyMatching R (x :: xs) (y :: ys) ((x, y) :: pairs) where
  toPerfectMatching := h.toPerfectMatching.cons hxy
  perm_of_perfectMatching := by
    intro other hother
    have hx := hother.left.symm.subset (List.mem_cons_self (a := x))
    obtain ⟨⟨_, y'⟩, hp, rfl⟩ := List.mem_map.mp hx
    have hpartner : y' = y := by
      rcases List.mem_cons.mp (hother.right.subset (List.mem_map_of_mem hp)) with heq | hmem
      · exact heq
      · exact absurd (hother.related _ hp) (hforced y' hmem)
    rw [hpartner] at hp
    obtain ⟨rest, hrest⟩ := exists_perm_cons_of_mem hp
    have hothers := hother.of_perm_cons hrest (.refl _) (.refl _)
    exact hrest.trans ((h.perm_of_perfectMatching rest hothers).cons _)

theorem perm {xs' : List α} {ys' : List β} (h : OnlyMatching R xs ys pairs)
    (hxs : xs.Perm xs') (hys : ys.Perm ys') : OnlyMatching R xs' ys' pairs where
  toPerfectMatching := h.toPerfectMatching.perm hxs hys
  perm_of_perfectMatching := by
    intro other hother
    exact h.perm_of_perfectMatching other (hother.perm hxs.symm hys.symm)

theorem swap (h : OnlyMatching R xs ys pairs) :
    OnlyMatching (flip R) ys xs (pairs.map Prod.swap) where
  toPerfectMatching := h.toPerfectMatching.swap
  perm_of_perfectMatching := by
    intro other hother
    have hperm := (h.perm_of_perfectMatching _ hother.swap).map Prod.swap
    simpa using hperm

theorem places (h : OnlyMatching R xs ys pairs) (hxs : xs.Nodup) (hys : ys.Nodup) :
    ∃ places, OnlyMatching (RelatedAt R xs ys) (List.range xs.length) (List.range ys.length)
      places := by
  obtain ⟨places, hplaces⟩ := Matchable.places ⟨pairs, h.toPerfectMatching⟩
  refine ⟨places, hplaces, ?_⟩
  intro other hother
  have hpairs := (h.perm_of_perfectMatching _ hother.pairsAt).trans
    (h.perm_of_perfectMatching _ hplaces.pairsAt).symm
  have hnodup := (hother.left.nodup_iff.mpr List.nodup_range).of_map
  have hnodup' := (hplaces.left.nodup_iff.mpr List.nodup_range).of_map
  rw [List.perm_ext_iff_of_nodup hnodup hnodup']
  intro p
  constructor
  · intro hp
    exact hother.subset_of_pairsAt_subset hxs hys hpairs.subset hp
  · intro hp
    exact hplaces.subset_of_pairsAt_subset hxs hys hpairs.symm.subset hp

theorem eq_self_of_mem_periodicPts (h : OnlyMatching R xs ys pairs) (hxs : xs.Nodup)
    (hys : ys.Nodup) {next : α × β → α × β}
    (hnext : ∀ p ∈ pairs, next p ∈ pairs ∧ R p.1 (next p).2)
    (hp : p ∈ pairs) (hcycle : p ∈ periodicPts next) : next p = p := by
  have hturned := h.perm_of_perfectMatching _ (h.turn hxs hnext)
  have hmoved : turnCycles next p = next p := if_pos hcycle
  have hmem : (p.1, (next p).2) ∈ pairs := by
    rw [← hmoved]
    exact hturned.subset (List.mem_map_of_mem hp)
  have hpair : (p.1, (next p).2) = p := h.eq_of_fst_eq hxs hmem hp rfl
  exact h.eq_of_snd_eq hys (hnext p hp).1 hp (Prod.ext_iff.mp hpair).2

/-- Whatever pairs of the only matching are fixed, one of the other pairs joins an element with the
only partner that is left for it. -/
theorem exists_forced (h : OnlyMatching R xs ys pairs) (hxs : xs.Nodup) (hys : ys.Nodup)
    {fixed : List (α × β)} (hp : p ∈ pairs) (hfree : p ∉ fixed) :
    ∃ p ∈ pairs, p ∉ fixed ∧ ∀ q ∈ pairs, q ∉ fixed → R p.1 q.2 → q = p := by
  classical
  by_contra hchoice
  push Not at hchoice
  let free := pairs.filter (· ∉ fixed)
  have hmem : ∀ q, q ∈ free ↔ q ∈ pairs ∧ q ∉ fixed := by simp [free]
  -- from each free pair to the pair of another partner; the other pairs stay where they are
  have hstep : ∀ p, ∃ q, (p ∈ free → q ∈ free ∧ R p.1 q.2 ∧ q ≠ p) ∧ (p ∉ free → q = p) := by
    intro p
    by_cases hp : p ∈ free
    · obtain ⟨q, hq, hqfree, hpq, hne⟩ := hchoice p ((hmem p).mp hp).1 ((hmem p).mp hp).2
      refine ⟨q, ?_, ?_⟩
      · intro _
        exact ⟨(hmem q).mpr ⟨hq, hqfree⟩, hpq, hne⟩
      · intro hnot
        exact absurd hp hnot
    · refine ⟨p, ?_, ?_⟩
      · intro hfree
        exact absurd hfree hp
      · intro _
        rfl
  choose next hnextFree hnextFixed using hstep
  have hnext : ∀ p ∈ pairs, next p ∈ pairs ∧ R p.1 (next p).2 := by
    intro p hp
    by_cases hpfree : p ∈ free
    · have hq := hnextFree p hpfree
      exact ⟨((hmem _).mp hq.1).1, hq.2.1⟩
    · rw [hnextFixed p hpfree]
      exact ⟨hp, h.related p hp⟩
  have hstays : ∀ q ∈ free, next q ∈ free := by
    intro q hq
    exact (hnextFree q hq).1
  obtain ⟨r, hr, hcycle⟩ := exists_mem_periodicPts hstays ((hmem p).mpr ⟨hp, hfree⟩)
  have hfixed := h.eq_self_of_mem_periodicPts hxs hys hnext ((hmem r).mp hr).1 hcycle
  exact (hnextFree r hr).2.2 hfixed

end OnlyMatching

end TableDiff
