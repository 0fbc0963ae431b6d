import TableDiff.Proofs.AnyOrder.Forced
import TableDiff.Proofs.IndexSet

/-!
# All rows with predicates or none

The pairs of rows without predicates are always kept.  The rows with predicates add a pair for each
of them and for each actual row left over, or they add no pair at all.  Where the numbers of rows or
a row without a partner tell that they cannot be paired, no search is made, and no limit is met.
-/

namespace TableDiff

theorem Candidates.anyEmpty_of_not_admits {m : Candidates} {i : Nat} (hi : i ∈ m.order)
    (hnone : ∀ j, ¬m.Admits ⟨i, j⟩) : m.anyEmpty = true := by
  obtain ⟨⟨_, candidates⟩, hrow, rfl⟩ := List.mem_map.mp hi
  have hempty : candidates.isEmpty = true := by
    rw [IndexSet.isEmpty_iff]
    intro j
    rw [Bool.eq_false_iff]
    intro hj
    exact hnone j ⟨candidates, hrow, hj⟩
  exact List.any_eq_true.mpr ⟨_, hrow, hempty⟩

namespace Compatibility.Represents

variable {c : Compatibility} {R : Nat → Nat → Prop} {n : Nat}

theorem anyEmpty_of_row (h : c.Represents R n) {i : Nat} (hi : i < n) (hnone : ∀ j, ¬R i j) :
    (c.forward.anyEmpty || c.backward.anyEmpty) = true := by
  have hrow := h.forward_order.symm.subset (List.mem_range.mpr hi)
  have hempty : c.forward.anyEmpty = true := by
    apply Candidates.anyEmpty_of_not_admits hrow
    intro j hj
    exact hnone j ((h.forward_admits ⟨i, j⟩).mp hj)
  rw [hempty, Bool.true_or]

theorem anyEmpty_of_column (h : c.Represents R n) {j : Nat} (hj : j < n) (hnone : ∀ i, ¬R i j) :
    (c.forward.anyEmpty || c.backward.anyEmpty) = true := by
  have hcolumn := h.backward_order.symm.subset (List.mem_range.mpr hj)
  have hempty : c.backward.anyEmpty = true := by
    apply Candidates.anyEmpty_of_not_admits hcolumn
    intro i hi
    exact hnone i ((h.backward_admits ⟨j, i⟩).mp hi)
  rw [hempty, Bool.or_true]

end Compatibility.Represents

/-- Rows with predicates that plainly cannot be paired with the actual rows left over. -/
inductive CellMatcher.Hopeless (m : CellMatcher) (predicate left : List Entry) : Prop where
  | counts (hne : predicate ≠ []) (hlength : predicate.length ≠ left.length)
  | row (e : Entry) (he : e ∈ predicate) (hnone : ∀ a ∈ left, ¬m.Joins e a)
  | leftover (a : Entry) (ha : a ∈ left) (hnone : ∀ e ∈ predicate, ¬m.Joins e a)

section

variable {m : CellMatcher} {limit : Nat} {expected actual predicate left : List Entry}

theorem anyEmpty_of_hopeless {matrix : List (List Bool)} (h : m.Hopeless predicate left)
    (hmatrix : m.matrix predicate left = .ok matrix) (hlength : predicate.length = left.length) :
    ((Compatibility.ofMatrix left.length matrix).forward.anyEmpty ||
      (Compatibility.ofMatrix left.length matrix).backward.anyEmpty) = true := by
  have hrepresents := matrix_represents hmatrix hlength
  cases h with
  | counts _ hne => exact absurd hlength hne
  | row e he hnone =>
      obtain ⟨i, hi⟩ := List.mem_iff_getElem?.mp he
      have hlt : i < left.length := by
        rw [← hlength]
        exact (List.getElem?_eq_some_iff.mp hi).1
      apply hrepresents.anyEmpty_of_row hlt
      rintro j ⟨x, a, hx, ha, hjoins⟩
      cases hi.symm.trans hx
      exact hnone a (List.mem_of_getElem? ha) hjoins
  | leftover a ha hnone =>
      obtain ⟨j, hj⟩ := List.mem_iff_getElem?.mp ha
      apply hrepresents.anyEmpty_of_column (List.getElem?_eq_some_iff.mp hj).1
      rintro i ⟨e, y, he, hy, hjoins⟩
      cases hj.symm.trans hy
      exact hnone e (List.mem_of_getElem? he) hjoins

variable (limit) in
/-- No search is made for rows that plainly cannot be paired. -/
theorem pairPredicateRows_of_hopeless (h : m.Hopeless predicate left)
    (hanswers : ∀ e ∈ predicate, ∀ a ∈ left, ∃ b, m.rowsMatch e.row a.row = .ok b) :
    ∃ found, pairPredicateRows m limit predicate left = .ok found ∧ found.getD [] = [] := by
  by_cases hne : predicate = []
  · rw [hne]
    exact ⟨some [], pairPredicateRows_nil, rfl⟩
  · refine ⟨none, ?_, rfl⟩
    by_cases hlength : predicate.length = left.length
    · obtain ⟨matrix, hmatrix⟩ := exists_matrix_eq_ok hanswers
      have hempty := anyEmpty_of_hopeless h hmatrix hlength
      rw [pairPredicateRows_of_length_eq m limit hne hlength, hmatrix, ok_bind]
      dsimp only
      rw [if_pos hempty]
      rfl
    · exact pairPredicateRows_of_length_ne m limit hne hlength

theorem perfectMatching_of_pairPredicateRows {found : Option (List (Entry × Entry))}
    (h : pairPredicateRows m limit predicate left = .ok found) :
    found.getD [] = [] ∨ PerfectMatching m.Joins predicate left (found.getD []) := by
  by_cases hne : predicate = []
  · rw [hne] at h
    cases pairPredicateRows_nil.symm.trans h
    exact .inl rfl
  · rcases pairPredicateRows_cases m limit left hne with
      ⟨pairs, hpairs, hmatching⟩ | ⟨hnone, _⟩ | herror | ⟨e, _, herror⟩
    · cases hpairs.symm.trans h
      exact .inr hmatching
    · cases hnone.symm.trans h
      exact .inl rfl
    · cases herror.symm.trans h
    · cases herror.symm.trans h

/-- Rows with predicates are paired completely or not at all, and where they plainly cannot be
paired the pairs of the other rows are found under every limit. -/
theorem matchAnyOrder_allOrNothing (m : CellMatcher) (expected actual : List Entry)
    (hexpected : (expected.map (·.index)).Nodup) (hactual : (actual.map (·.index)).Nodup)
    (hconcrete : ∀ a ∈ actual, a.row.hasPredicate = false) :
    ∃ literalPairs left,
      pairLiteralRows m (expected.filter fun e => !e.row.hasPredicate) actual =
        .ok (literalPairs, left) ∧
      (∀ limit l, matchAnyOrder m limit expected actual = .ok l →
        ∃ predicatePairs,
          l.toList = (literalPairs ++ predicatePairs).map (fun p => p.1.pair p.2) ∧
          (predicatePairs = [] ∨
            PerfectMatching m.Joins (expected.filter fun e => e.row.hasPredicate) left
              predicatePairs)) ∧
      (m.Hopeless (expected.filter fun e => e.row.hasPredicate) left →
        ∀ limit, ∃ l, matchAnyOrder m limit expected actual = .ok l ∧
          l.toList = literalPairs.map fun p => p.1.pair p.2) := by
  have hanswers : ∀ e : Entry, ∀ a ∈ actual, ∃ b, m.rowsMatch e.row a.row = .ok b := by
    intro _ a ha
    exact CellMatcher.exists_rowsMatch_eq_ok (hconcrete a ha)
  obtain ⟨⟨literalPairs, left⟩, hliteral⟩ := exists_pairLiteralRows_eq_ok fun e _ => hanswers e
  refine ⟨literalPairs, left, hliteral, ?_, ?_⟩
  · intro limit l hl
    obtain ⟨_, _, found, hliteral', hfound, hlist, _⟩ := matchAnyOrder_eq_ok hl
    cases hliteral.symm.trans hliteral'
    exact ⟨found.getD [], hlist, perfectMatching_of_pairPredicateRows hfound⟩
  · intro hhopeless limit
    have hleft : left ⊆ actual := by
      intro a ha
      exact (pairLiteralRows_sound hliteral).2.subset (List.mem_append_right _ ha)
    have hanswers' : ∀ e ∈ expected.filter fun e => e.row.hasPredicate, ∀ a ∈ left,
        ∃ b, m.rowsMatch e.row a.row = .ok b := by
      intro e _ a ha
      exact hanswers e a (hleft ha)
    obtain ⟨found, hfound, hnone⟩ := pairPredicateRows_of_hopeless limit hhopeless hanswers'
    obtain ⟨l, hl, hlist⟩ := matchAnyOrder_of_phases hliteral hfound hexpected hactual
    rw [hnone, List.append_nil] at hlist
    exact ⟨l, hl, hlist⟩

/-- After the only `true` is taken, no row is left that passes the test for `true`. -/
theorem matchAnyOrder_allOrNothing_testsTrue :
    ∃ l, matchAnyOrder (.positional .strict) 0 [.testsTrue, .holds 2 true]
        [.holds 0 true, .holds 1 false] = .ok l ∧
      l.toList = [⟨2, 0⟩] := by
  obtain ⟨literalPairs, left, hliteral, _, hhopeless⟩ := matchAnyOrder_allOrNothing
    (.positional .strict) [.testsTrue, .holds 2 true] [.holds 0 true, .holds 1 false]
    (by decide) (by decide) (by decide)
  have hphase : pairLiteralRows (.positional .strict) [.holds 2 true]
      [.holds 0 true, .holds 1 false] =
        .ok ([(.holds 2 true, .holds 0 true)], [.holds 1 false]) := by
    cbv
  cases hliteral.symm.trans hphase
  have htests : Entry.testsTrue ∈ [Entry.testsTrue, .holds 2 true].filter
      fun e => e.row.hasPredicate :=
    List.mem_filter.mpr ⟨by simp, rfl⟩
  exact hhopeless (.row .testsTrue htests (by decide)) 0

end

end TableDiff
