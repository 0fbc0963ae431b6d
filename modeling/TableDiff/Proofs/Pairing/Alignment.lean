import TableDiff.Proofs.Pairing.Built
import TableDiff.Proofs.Tally

/-!
# The lines of a pairing

The lines are made from a table of partners and a set of used indices.  Since no index is in two
pairs these say what the two lookups say.  So the lines are the given expected indices with their
partners and then the given actual indices that have none, and when all pairs are among the given
indices there is one complete line for every pair.
-/

namespace TableDiff

namespace Pairing

variable {l : Pairing} {expected actual : List Nat}

theorem partner?_eq_actualFor? (h : Distinct l.toList) (i : Nat) :
    l.partner? i = l.actualFor? i := by
  apply Option.ext
  intro j
  rw [partner?_eq_some_iff h, actualFor?_eq_some_iff h]

theorem aligned_eq_lookups (h : Distinct l.toList) (expected actual : List Nat) :
    l.aligned expected actual =
      expected.map (fun i => ⟨some i, l.actualFor? i⟩) ++
        (actual.filter fun j => (l.expectedFor? j).isNone).map DiffLine.actualOnly := by
  have hfree : ∀ j, decide (j ∉ l.toList.map (·.actual)) = (l.expectedFor? j).isNone := by
    intro j
    rw [Bool.eq_iff_iff, decide_eq_true_eq, ← isSome_expectedFor?_iff, Bool.not_eq_true,
      Option.isSome_eq_false_iff]
  simp only [aligned_eq h, partner?_eq_actualFor? h, hfree]

/-- The actual indices on complete lines are those of the pairs. -/
theorem countP_isComplete_aligned (h : Distinct l.toList) (hexpected : expected.Nodup)
    (hleft : ∀ p ∈ l.toList, p.expected ∈ expected) (actual : List Nat) :
    (l.aligned expected actual).countP DiffLine.isComplete = l.size := by
  have hpartners : (expected.filterMap l.partner?).Perm (l.toList.map (·.actual)) :=
    (List.perm_ext_iff_of_nodup (nodup_filterMap_partner? h hexpected) h.actual).mpr
      fun _ => mem_filterMap_partner?_iff h hleft
  have hlength := hpartners.length_eq
  rw [List.length_map, length_toList, List.length_filterMap_eq_countP] at hlength
  rw [aligned_eq h, List.countP_append, List.countP_map, List.countP_map, ← hlength]
  simp [Function.comp_def, DiffLine.isComplete, DiffLine.actualOnly]

/-- Lines show every given index once and every pair on a line of its own. -/
theorem aligned_of_built (h : l.Built) (hexpected : expected.Nodup) (hactual : actual.Nodup)
    (hleft : ∀ p ∈ l.toList, p.expected ∈ expected)
    (hright : ∀ p ∈ l.toList, p.actual ∈ actual) :
    l.aligned expected actual =
        expected.map (fun i => ⟨some i, l.actualFor? i⟩) ++
          (actual.filter fun j => (l.expectedFor? j).isNone).map DiffLine.actualOnly ∧
      (∀ i, (l.aligned expected actual).countP (fun line => line.expected? == some i) =
        if i ∈ expected then 1 else 0) ∧
      (∀ j, (l.aligned expected actual).countP (fun line => line.actual? == some j) =
        if j ∈ actual then 1 else 0) ∧
      (l.aligned expected actual).countP DiffLine.isComplete = l.size ∧
      ((l.aligned expected actual).all DiffLine.isComplete = true ↔
        l.size = expected.length ∧ l.size = actual.length) := by
  have hdistinct := h.distinct
  have hcovers := covers_aligned hdistinct hexpected hactual hleft hright
  refine ⟨aligned_eq_lookups hdistinct expected actual, ?_, ?_,
    countP_isComplete_aligned hdistinct hexpected hleft actual, ?_⟩
  · intro i
    rw [← List.count_filterMap, hcovers.expected_perm.count_eq, hexpected.count]
  · intro j
    rw [← List.count_filterMap, hcovers.actual_perm.count_eq, hactual.count]
  · have hcounts := countP_isNone_aligned hdistinct hexpected hactual hleft hright
    rw [DiffLine.all_isComplete_iff]
    omega

/-- The expected index 1 and the actual indices 0 and 2 are in no pair of `crossed`. -/
theorem aligned_of_built_crossed :
    crossed.Built ∧
      crossed.aligned [0, 1, 3] [0, 1, 2, 5] =
        [.both 0 5, .expectedOnly 1, .both 3 1, .actualOnly 0, .actualOnly 2] ∧
      (crossed.aligned [0, 1, 3] [0, 1, 2, 5]).all DiffLine.isComplete = false := by
  have hexpected : [0, 1, 3].Nodup := by decide
  have hactual : [0, 1, 2, 5].Nodup := by decide
  obtain ⟨hlines, _, _, _, hall⟩ :=
    aligned_of_built built_crossed hexpected hactual (by decide) (by decide)
  refine ⟨built_crossed, hlines, ?_⟩
  rw [Bool.eq_false_iff]
  intro hcomplete
  exact absurd (hall.mp hcomplete) (by decide)

end Pairing

end TableDiff
