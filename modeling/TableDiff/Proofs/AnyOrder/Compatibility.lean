import TableDiff.Proofs.AnyOrder.Greedy
import TableDiff.Proofs.Assignment

/-!
# Pairing the rows with predicates

The assignment problem of a phase has as its complete assignments, seen from either side, exactly
the perfect matchings of its rows.  So whichever side leads the search, the phase pairs all rows or
reports that this cannot be done, unless it meets its limit.
-/

namespace TableDiff

theorem mem_truePlaces {bs : List Bool} {i : Nat} :
    i ∈ truePlaces bs ↔ bs[i]? = some true := by
  simp [truePlaces, List.mem_zipIdx_iff_getElem?]

def IndexPair.toProd (p : IndexPair) : Nat × Nat := (p.expected, p.actual)

namespace Candidates

/-- Complete assignments of as many rows as candidates are perfect matchings. -/
theorem assigns_iff
    {m : Candidates} {R : Nat → Nat → Prop} {n : Nat}
    (horder : m.order.Perm (List.range n))
    (hR : ∀ p, m.Admits p ↔ R p.expected p.actual)
    (hlt : ∀ i j, R i j → j < n) {pairs : List IndexPair} :
    m.Assigns pairs ↔
      PerfectMatching R (List.range n) (List.range n) (pairs.map IndexPair.toProd) := by
  have hfst : (pairs.map IndexPair.toProd).map Prod.fst = pairs.map (·.expected) := by
    simp [IndexPair.toProd, Function.comp_def]
  have hsnd : (pairs.map IndexPair.toProd).map Prod.snd = pairs.map (·.actual) := by
    simp [IndexPair.toProd, Function.comp_def]
  constructor
  · intro h
    have hexpected : (pairs.map (·.expected)).Perm (List.range n) := by
      rw [List.perm_ext_iff_of_nodup h.distinct.expected List.nodup_range]
      intro i
      rw [← horder.mem_iff, List.mem_map]
      constructor
      · rintro ⟨p, hp, rfl⟩
        rcases h.admits p hp with ⟨candidates, hmem, _⟩
        exact List.mem_map_of_mem hmem
      · intro hi
        rcases List.mem_map.mp hi with ⟨r, hr, rfl⟩
        exact h.complete r hr
    have hactual : (pairs.map (·.actual)).Perm (List.range n) := by
      have hsub : pairs.map (·.actual) ⊆ List.range n := by
        intro j hj
        rcases List.mem_map.mp hj with ⟨p, hp, rfl⟩
        exact List.mem_range.mpr (hlt _ _ ((hR p).mp (h.admits p hp)))
      have hlength : (List.range n).length ≤ (pairs.map (·.actual)).length := by
        rw [← hexpected.length_eq, List.length_map, List.length_map]
      exact (List.subperm_of_subset h.distinct.actual hsub).perm_of_length_le hlength
    constructor
    · rw [hfst]
      exact hexpected
    · rw [hsnd]
      exact hactual
    · intro q hq
      rcases List.mem_map.mp hq with ⟨p, hp, rfl⟩
      exact (hR p).mp (h.admits p hp)
  · intro h
    have hexpected := h.left
    have hactual := h.right
    rw [hfst] at hexpected
    rw [hsnd] at hactual
    constructor
    · constructor
      · exact hexpected.nodup_iff.mpr List.nodup_range
      · exact hactual.nodup_iff.mpr List.nodup_range
    · intro p hp
      exact (hR p).mpr (h.related _ (List.mem_map_of_mem hp))
    · intro r hr
      have hrow : r.1 ∈ m.order := List.mem_map_of_mem hr
      rw [horder.mem_iff, ← hexpected.mem_iff] at hrow
      exact List.mem_map.mp hrow

theorem not_assigns_of_anyEmpty
    {m : Candidates} (hrows : (m.rows.map (·.1)).Nodup) (h : m.anyEmpty = true)
    (pairs : List IndexPair) : ¬m.Assigns pairs := by
  intro hassigns
  rcases List.any_eq_true.mp h with ⟨r, hr, hempty⟩
  rcases hassigns.complete r hr with ⟨p, hp, hrow⟩
  rcases hassigns.admits p hp with ⟨candidates, hmem, hcandidate⟩
  have hsame : (p.expected, candidates) = r := List.inj_on_of_nodup_map hrows hmem hr hrow
  rw [← hsame] at hempty
  rw [IndexSet.contains_eq_false_of_isEmpty hempty] at hcandidate
  cases hcandidate

end Candidates

namespace Compatibility

/-- Both directions of the problem have the places below `n` as rows, and their candidates are the
related places. -/
structure Represents (c : Compatibility) (R : Nat → Nat → Prop) (n : Nat) : Prop where
  forward_order : c.forward.order.Perm (List.range n)
  backward_order : c.backward.order.Perm (List.range n)
  forward_admits : ∀ p, c.forward.Admits p ↔ R p.expected p.actual
  backward_admits : ∀ p, c.backward.Admits p ↔ R p.actual p.expected
  lt : ∀ i j, R i j → i < n ∧ j < n

variable {c : Compatibility} {R : Nat → Nat → Prop} {n : Nat}

namespace Represents

theorem forward_assigns (h : c.Represents R n) {pairs : List IndexPair} :
    c.forward.Assigns pairs ↔
      PerfectMatching R (List.range n) (List.range n) (pairs.map IndexPair.toProd) := by
  apply Candidates.assigns_iff h.forward_order h.forward_admits
  intro i j hij
  exact (h.lt i j hij).2

theorem backward_assigns (h : c.Represents R n) {pairs : List IndexPair} :
    c.backward.Assigns pairs ↔
      PerfectMatching (flip R) (List.range n) (List.range n)
        (pairs.map IndexPair.toProd) := by
  apply Candidates.assigns_iff h.backward_order h.backward_admits
  intro i j hij
  exact (h.lt j i hij).1

theorem forward_valid (h : c.Represents R n) (limit : Nat) :
    Search.Valid ⟨c.forward, c.backward.order, limit⟩ where
  rows_nodup := Candidates.nodup_order h.forward_order
  mem_secondaryOrder := by
    intro r hr j hj
    have hR := (h.forward_admits ⟨r.1, j⟩).mp ⟨r.2, hr, hj⟩
    exact h.backward_order.symm.mem_iff.mp (List.mem_range.mpr (h.lt _ _ hR).2)

theorem backward_valid (h : c.Represents R n) (limit : Nat) :
    Search.Valid ⟨c.backward, c.forward.order, limit⟩ where
  rows_nodup := Candidates.nodup_order h.backward_order
  mem_secondaryOrder := by
    intro r hr j hj
    have hR := (h.backward_admits ⟨r.1, j⟩).mp ⟨r.2, hr, hj⟩
    exact h.forward_order.symm.mem_iff.mp (List.mem_range.mpr (h.lt _ _ hR).1)

theorem exists_forward_assigns
    (h : c.Represents R n) (hmatchable : Matchable R (List.range n) (List.range n)) :
    ∃ pairs, c.forward.Assigns pairs := by
  rcases hmatchable with ⟨places, hplaces⟩
  refine ⟨places.map fun p => ⟨p.1, p.2⟩, h.forward_assigns.mpr ?_⟩
  simpa [IndexPair.toProd, Function.comp_def] using hplaces

theorem exists_backward_assigns
    (h : c.Represents R n) (hmatchable : Matchable R (List.range n) (List.range n)) :
    ∃ pairs, c.backward.Assigns pairs := by
  rcases hmatchable with ⟨places, hplaces⟩
  refine ⟨places.map fun p => ⟨p.2, p.1⟩, h.backward_assigns.mpr ?_⟩
  rw [List.map_map]
  exact hplaces.swap

/-- Whichever side leads, the problem is solved, shown to have no solution, or given up. -/
theorem solve_cases (h : c.Represents R n) (limit : Nat) :
    (∃ pairs, c.solve limit = .ok (some pairs) ∧
        PerfectMatching R (List.range n) (List.range n) (pairs.map IndexPair.toProd)) ∨
      (c.solve limit = .ok none ∧ ¬Matchable R (List.range n) (List.range n)) ∨
      c.solve limit = .error (.tooManyPermutations limit) := by
  unfold solve
  split
  · rcases Search.solve_cases (h.forward_valid limit) with
      ⟨found, hsolve, hassigns⟩ | ⟨hsolve, hnone⟩ | hsolve
    · left
      refine ⟨found.toList, ?_, h.forward_assigns.mp hassigns⟩
      rw [hsolve]
      rfl
    · right; left
      refine ⟨by rw [hsolve]; rfl, ?_⟩
      intro hmatchable
      rcases h.exists_forward_assigns hmatchable with ⟨pairs, hpairs⟩
      exact hnone pairs hpairs
    · right; right
      rw [hsolve]
      rfl
  · rcases Search.solve_cases (h.backward_valid limit) with
      ⟨found, hsolve, hassigns⟩ | ⟨hsolve, hnone⟩ | hsolve
    · left
      refine ⟨found.swapped.toList, by rw [hsolve]; rfl, ?_⟩
      have hswap := (h.backward_assigns.mp hassigns).swap
      rw [List.map_map] at hswap
      rw [Pairing.toList_swapped, List.map_map]
      exact hswap
    · right; left
      refine ⟨by rw [hsolve]; rfl, ?_⟩
      intro hmatchable
      rcases h.exists_backward_assigns hmatchable with ⟨pairs, hpairs⟩
      exact hnone pairs hpairs
    · right; right
      rw [hsolve]
      rfl

theorem not_matchable_of_anyEmpty
    (h : c.Represents R n)
    (hempty : (c.forward.anyEmpty || c.backward.anyEmpty) = true) :
    ¬Matchable R (List.range n) (List.range n) := by
  intro hmatchable
  rw [Bool.or_eq_true] at hempty
  rcases hempty with hempty | hempty
  · rcases h.exists_forward_assigns hmatchable with ⟨pairs, hpairs⟩
    exact Candidates.not_assigns_of_anyEmpty
      (Candidates.nodup_order h.forward_order) hempty pairs hpairs
  · rcases h.exists_backward_assigns hmatchable with ⟨pairs, hpairs⟩
    exact Candidates.not_assigns_of_anyEmpty
      (Candidates.nodup_order h.backward_order) hempty pairs hpairs

end Represents

theorem forward_admits_ofMatrix {matrix : List (List Bool)} (p : IndexPair) :
    (ofMatrix n matrix).forward.Admits p ↔
      ∃ answers, matrix[p.expected]? = some answers ∧ answers[p.actual]? = some true := by
  simp [Candidates.Admits, ofMatrix, Candidates.mem_rows_ofSets, List.getElem?_map,
    IndexSet.contains_ofList, mem_truePlaces]

/-- The columns of the matrix are read where its rows are wide enough. -/
theorem backward_admits_ofMatrix {matrix : List (List Bool)}
    (hwidths : ∀ answers ∈ matrix, answers.length = n) (p : IndexPair) :
    (ofMatrix n matrix).backward.Admits p ↔
      ∃ answers, matrix[p.actual]? = some answers ∧ answers[p.expected]? = some true := by
  have hentry : ∀ answers : List Bool,
      answers.getD p.expected false = true ↔ answers[p.expected]? = some true := by
    intro answers
    rw [List.getD_eq_getElem?_getD]
    cases answers[p.expected]? with
    | none => simp
    | some b => simp
  have hcolumn : ∀ set, (p.expected, set) ∈ (ofMatrix n matrix).backward.rows ↔
      p.expected < n ∧ IndexSet.ofList
        (truePlaces (matrix.map fun answers => answers.getD p.expected false)) = set := by
    intro set
    rw [ofMatrix, Candidates.mem_rows_ofSets, List.getElem?_map, Option.map_eq_some_iff]
    constructor
    · intro h
      rcases h with ⟨j, hj, hset⟩
      rcases List.getElem?_eq_some_iff.mp hj with ⟨hlt, rfl⟩
      rw [List.getElem_range] at hset
      exact ⟨by simpa using hlt, hset⟩
    · intro h
      exact ⟨p.expected, List.getElem?_range h.1, h.2⟩
  have hmember : (IndexSet.ofList (truePlaces
      (matrix.map fun answers => answers.getD p.expected false))).contains p.actual = true ↔
        ∃ answers, matrix[p.actual]? = some answers ∧ answers[p.expected]? = some true := by
    rw [IndexSet.contains_ofList, decide_eq_true_eq, mem_truePlaces, List.getElem?_map,
      Option.map_eq_some_iff]
    simp only [hentry]
  constructor
  · intro h
    rcases h with ⟨set, hset, hmem⟩
    rcases (hcolumn set).mp hset with ⟨_, rfl⟩
    exact hmember.mp hmem
  · intro h
    have hmem := hmember.mpr h
    rcases h with ⟨answers, hanswers, htrue⟩
    have hwidth := hwidths answers (List.mem_of_getElem? hanswers)
    have hlt := (List.getElem?_eq_some_iff.mp htrue).1
    exact ⟨_, (hcolumn _).mpr ⟨by omega, rfl⟩, hmem⟩

/-- A square matrix of answers represents the places where the answer is yes. -/
theorem ofMatrix_represents
    {matrix : List (List Bool)} (hlength : matrix.length = n)
    (hwidths : ∀ answers ∈ matrix, answers.length = n) :
    (ofMatrix n matrix).Represents
      (fun i j => ∃ answers, matrix[i]? = some answers ∧ answers[j]? = some true) n where
  forward_order := by
    have h := Candidates.order_ofSets_perm
      (matrix.map fun answers => IndexSet.ofList (truePlaces answers))
    rwa [List.length_map, hlength] at h
  backward_order := by
    have h := Candidates.order_ofSets_perm ((List.range n).map fun j =>
      IndexSet.ofList (truePlaces (matrix.map fun answers => answers.getD j false)))
    rwa [List.length_map, List.length_range] at h
  forward_admits := forward_admits_ofMatrix
  backward_admits := backward_admits_ofMatrix hwidths
  lt := by
    intro i j h
    rcases h with ⟨answers, hanswers, htrue⟩
    have hi := (List.getElem?_eq_some_iff.mp hanswers).1
    have hj := (List.getElem?_eq_some_iff.mp htrue).1
    have hwidth := hwidths answers (List.mem_of_getElem? hanswers)
    omega

end Compatibility

/-! ## The rows with predicates -/

section

variable {m : CellMatcher} {limit : Nat} {predicate actual : List Entry}

def CellMatcher.matrix (m : CellMatcher) (expected actual : List Entry) :
    Except MatchError (List (List Bool)) :=
  expected.mapM fun e => actual.mapM fun a => m.rowsMatch e.row a.row

theorem exists_matrix_eq_ok
    (h : ∀ e ∈ predicate, ∀ a ∈ actual, ∃ b, m.rowsMatch e.row a.row = .ok b) :
    ∃ matrix, m.matrix predicate actual = .ok matrix := by
  apply exists_mapM_eq_ok
  intro e he
  exact exists_mapM_eq_ok (h e he)

theorem matrix_represents
    {matrix : List (List Bool)} (h : m.matrix predicate actual = .ok matrix)
    (hlength : predicate.length = actual.length) :
    (Compatibility.ofMatrix actual.length matrix).Represents
      (RelatedAt m.Joins predicate actual) actual.length := by
  have hentry : ∀ i j, (∃ answers, matrix[i]? = some answers ∧ answers[j]? = some true) ↔
      RelatedAt m.Joins predicate actual i j := by
    intro i j
    constructor
    · intro hex
      rcases hex with ⟨answers, hanswers, htrue⟩
      rcases (getElem?_of_mapM_eq_ok h).mp hanswers with ⟨e, he, hrow⟩
      rcases (getElem?_of_mapM_eq_ok hrow).mp htrue with ⟨a, ha, hmatch⟩
      exact ⟨e, a, he, ha, hmatch⟩
    · intro hex
      rcases hex with ⟨e, a, he, ha, hmatch⟩
      have hi := (List.getElem?_eq_some_iff.mp he).1
      have hi' : i < matrix.length := by rw [length_of_mapM_eq_ok h]; exact hi
      have hanswers := List.getElem?_eq_getElem hi'
      rcases (getElem?_of_mapM_eq_ok h).mp hanswers with ⟨e', he', hrow⟩
      have heq : e = e' := Option.some.inj (he.symm.trans he')
      rw [← heq] at hrow
      exact ⟨_, hanswers, (getElem?_of_mapM_eq_ok hrow).mpr ⟨a, ha, hmatch⟩⟩
  have hwidths : ∀ answers ∈ matrix, answers.length = actual.length := by
    intro answers hanswers
    rcases List.mem_iff_getElem?.mp hanswers with ⟨i, hi⟩
    rcases (getElem?_of_mapM_eq_ok h).mp hi with ⟨e, _, hrow⟩
    exact length_of_mapM_eq_ok hrow
  have hrelation : (fun i j => ∃ answers, matrix[i]? = some answers ∧ answers[j]? = some true) =
      RelatedAt m.Joins predicate actual := by
    funext i j
    exact propext (hentry i j)
  rw [← hrelation]
  exact Compatibility.ofMatrix_represents ((length_of_mapM_eq_ok h).trans hlength) hwidths

section

variable {matrix : List (List Bool)}

theorem not_matchable_of_anyEmpty
    (h : m.matrix predicate actual = .ok matrix) (hlength : predicate.length = actual.length)
    (hempty : ((Compatibility.ofMatrix actual.length matrix).forward.anyEmpty ||
      (Compatibility.ofMatrix actual.length matrix).backward.anyEmpty) = true) :
    ¬Matchable m.Joins predicate actual := by
  rw [← matchable_places_iff, hlength]
  exact (matrix_represents h hlength).not_matchable_of_anyEmpty hempty

variable (limit) in
theorem solve_ofMatrix_cases
    (h : m.matrix predicate actual = .ok matrix) (hlength : predicate.length = actual.length) :
    (∃ places, (Compatibility.ofMatrix actual.length matrix).solve limit = .ok (some places) ∧
        PerfectMatching m.Joins predicate actual
          (pairsAt predicate actual (places.map IndexPair.toProd))) ∨
      ((Compatibility.ofMatrix actual.length matrix).solve limit = .ok none ∧
        ¬Matchable m.Joins predicate actual) ∨
      (Compatibility.ofMatrix actual.length matrix).solve limit =
        .error (.tooManyPermutations limit) := by
  rcases (matrix_represents h hlength).solve_cases limit with
    ⟨places, hsolve, hplaces⟩ | ⟨hsolve, hnone⟩ | hsolve
  · refine .inl ⟨places, hsolve, ?_⟩
    apply PerfectMatching.pairsAt
    rw [hlength]
    exact hplaces
  · refine .inr (.inl ⟨hsolve, ?_⟩)
    rw [← matchable_places_iff, hlength]
    exact hnone
  · exact .inr (.inr hsolve)

end

theorem pairPredicateRows_nil : pairPredicateRows m limit [] actual = .ok (some []) := rfl

variable (m limit) in
theorem pairPredicateRows_of_length_ne (hne : predicate ≠ [])
    (hlength : predicate.length ≠ actual.length) :
    pairPredicateRows m limit predicate actual = .ok none := by
  have hempty : ¬predicate.isEmpty = true := by simpa using hne
  unfold pairPredicateRows
  rw [if_neg hempty, if_pos hlength]
  rfl

variable (m limit) in
/-- As many rows with predicates as actual rows are given to a search over all answers. -/
theorem pairPredicateRows_of_length_eq (hne : predicate ≠ [])
    (hlength : predicate.length = actual.length) :
    pairPredicateRows m limit predicate actual = (do
      let matrix ← m.matrix predicate actual
      let problem := Compatibility.ofMatrix actual.length matrix
      if problem.forward.anyEmpty || problem.backward.anyEmpty then
        return none
      else
        let found ← problem.solve limit
        return found.map fun places =>
          pairsAt predicate actual (places.map IndexPair.toProd)) := by
  have hempty : ¬predicate.isEmpty = true := by simpa using hne
  unfold pairPredicateRows
  rw [if_neg hempty, if_neg (not_not.mpr hlength)]
  simp only [pairsAt, List.filterMap_map]
  rfl

variable (m limit actual) in
/-- The rows with predicates are all paired, or cannot be, or the phase fails: by its limit or
because two rows cannot be compared. -/
theorem pairPredicateRows_cases (hne : predicate ≠ []) :
    (∃ pairs, pairPredicateRows m limit predicate actual = .ok (some pairs) ∧
        PerfectMatching m.Joins predicate actual pairs) ∨
      (pairPredicateRows m limit predicate actual = .ok none ∧
        ¬Matchable m.Joins predicate actual) ∨
      pairPredicateRows m limit predicate actual = .error (.tooManyPermutations limit) ∨
      ∃ e, m.matrix predicate actual = .error e ∧
        pairPredicateRows m limit predicate actual = .error e := by
  by_cases hlength : predicate.length = actual.length
  · rw [pairPredicateRows_of_length_eq m limit hne hlength]
    cases hmatrix : m.matrix predicate actual with
    | error e =>
        right; right; right
        exact ⟨e, rfl, rfl⟩
    | ok matrix =>
        rw [ok_bind]
        dsimp only
        split
        · next hanyEmpty =>
          right; left
          exact ⟨rfl, not_matchable_of_anyEmpty hmatrix hlength hanyEmpty⟩
        · rcases solve_ofMatrix_cases limit hmatrix hlength with
            ⟨places, hsolve, hpairs⟩ | ⟨hsolve, hnone⟩ | hsolve
          · left
            refine ⟨_, ?_, hpairs⟩
            rw [hsolve]
            rfl
          · right; left
            refine ⟨?_, hnone⟩
            rw [hsolve]
            rfl
          · right; right; left
            rw [hsolve]
            rfl
  · right; left
    refine ⟨pairPredicateRows_of_length_ne m limit hne hlength, ?_⟩
    rintro ⟨pairs, hpairs⟩
    exact hlength hpairs.length_eq

/-- If the phase succeeds, its pairs join rows that match, and they are all rows if all can be
paired. -/
theorem pairPredicateRows_eq_ok {found : Option (List (Entry × Entry))}
    (h : pairPredicateRows m limit predicate actual = .ok found) :
    PartialMatching m.Joins predicate actual (found.getD []) ∧
      (Matchable m.Joins predicate actual →
        PerfectMatching m.Joins predicate actual (found.getD [])) := by
  by_cases hne : predicate = []
  · rw [hne] at h ⊢
    rw [pairPredicateRows_nil] at h
    cases h
    refine ⟨.nil, ?_⟩
    intro hmatchable
    rw [Matchable.nil_left_iff.mp hmatchable]
    exact .nil
  · rcases pairPredicateRows_cases m limit actual hne with
      ⟨pairs, hpairs, hmatching⟩ | ⟨hnone, hunmatchable⟩ | herror | ⟨e, _, herror⟩
    · rw [hpairs] at h
      cases h
      refine ⟨hmatching.partialMatching, ?_⟩
      intro _
      exact hmatching
    · rw [hnone] at h
      cases h
      refine ⟨.nil, ?_⟩
      intro hmatchable
      exact absurd hmatchable hunmatchable
    · rw [herror] at h
      cases h
    · rw [herror] at h
      cases h

theorem exists_of_matrix_eq_error {fault : MatchError}
    (h : m.matrix predicate actual = .error fault) :
    ∃ e ∈ predicate, ∃ a ∈ actual, m.rowsMatch e.row a.row = .error fault := by
  obtain ⟨e, he, hline⟩ := exists_of_mapM_eq_error h
  obtain ⟨a, ha, hfault⟩ := exists_of_mapM_eq_error hline
  exact ⟨e, he, a, ha, hfault⟩

/-- Rows with predicates are there when the phase fails: two rows cannot be compared, or the search
meets its limit. -/
theorem pairPredicateRows_eq_error {fault : MatchError}
    (h : pairPredicateRows m limit predicate actual = .error fault) :
    predicate ≠ [] ∧ (fault = .tooManyPermutations limit ∨
      ∃ e ∈ predicate, ∃ a ∈ actual, m.rowsMatch e.row a.row = .error fault) := by
  have hne : predicate ≠ [] := by
    rintro rfl
    cases h
  refine ⟨hne, ?_⟩
  rcases pairPredicateRows_cases m limit actual hne with
    ⟨pairs, hpairs, _⟩ | ⟨hnone, _⟩ | herror | ⟨e, hmatrix, herror⟩
  · cases hpairs.symm.trans h
  · cases hnone.symm.trans h
  · cases herror.symm.trans h
    exact .inl rfl
  · cases herror.symm.trans h
    exact .inr (exists_of_matrix_eq_error hmatrix)

end

end TableDiff
