import TableDiff.Cells
import TableDiff.Proofs.Literal.Equivalence
import TableDiff.Proofs.Table

/-!
# When two rows match

Two rows match when every expected cell that has a partner column admits the concrete value in that
column.  This holds in both ways of finding partners, and all later arguments about matching rows
start from it.  A row without predicates on the expected side only matches rows that all other
expected rows treat alike.
-/

namespace TableDiff

namespace MatchError

@[simp] theorem lift_eq_ok_iff {α : Type} {x : Except TableError α} {a : α} :
    lift x = .ok a ↔ x = .ok a := by
  cases x <;> simp [lift]

theorem exists_of_lift_eq_error {α : Type} {x : Except TableError α} {e : MatchError}
    (h : lift x = .error e) : ∃ fault, e = .table fault := by
  cases x with
  | ok a => cases h
  | error fault =>
      cases h
      exact ⟨fault, rfl⟩

end MatchError

namespace Value

theorem matchesCell_eq_ok_true_iff {expected actual : Value} {mode : ConversionMode} :
    expected.matchesCell actual mode = .ok true ↔
      ∃ v, actual.evaluate = .ok v ∧ expected.admits v mode = true := by
  unfold matchesCell
  rw [bind_eq_ok_iff]
  simp only [pure, Except.pure, Except.ok.injEq]

theorem exists_evaluate_eq_ok {v : Value} (h : v.isPredicate = false) :
    ∃ l, v.evaluate = .ok l := by
  cases v with
  | null => exact ⟨none, rfl⟩
  | literal l => exact ⟨some l, rfl⟩
  | predicate p => cases h

theorem isPredicate_eq_false_of_evaluate {v : Value} {l : Option Literal}
    (h : v.evaluate = .ok l) : v.isPredicate = false := by
  cases v with
  | null => rfl
  | literal _ => rfl
  | predicate p => cases h

theorem eq_literal_of_evaluate {v : Value} {l : Literal} (h : v.evaluate = .ok (some l)) :
    v = .literal l := by
  cases v with
  | null => cases h
  | literal k => cases h; rfl
  | predicate p => cases h

/-- Concrete values that one cell without a predicate admits are admitted by the same cells. -/
theorem admits_congr
    {e x : Value} {v v' : Option Literal} {mode : ConversionMode}
    (he : e.isPredicate = false)
    (hx : ∀ p, x = .predicate p → ∀ a b, v = some a → v' = some b →
      a.equivalent b mode = true → p.test (some a) = p.test (some b))
    (hv : e.admits v mode = true) (hv' : e.admits v' mode = true) :
    x.admits v mode = x.admits v' mode := by
  cases e with
  | null =>
      simp only [admits, Option.isNone_iff_eq_none] at hv hv'
      rw [hv, hv']
  | literal l =>
      cases v with
      | none => simp [admits] at hv
      | some a =>
          cases v' with
          | none => simp [admits] at hv'
          | some a' =>
              have haa' : a.equivalent a' mode = true :=
                Literal.equivalent_trans (Literal.equivalent_symm hv) hv'
              cases x with
              | null => rfl
              | literal k => exact Literal.equivalent_congr_right haa'
              | predicate p => exact hx p rfl a a' rfl rfl haa'
  | predicate p => cases he

end Value

theorem allCellsMatch_eq_ok_true_iff
    {mode : ConversionMode} {cells : List (Value × Option Value)} :
    allCellsMatch mode cells = .ok true ↔
      ∀ p ∈ cells, ∃ a, p.2 = some a ∧ p.1.matchesCell a mode = .ok true := by
  induction cells with
  | nil => simp [allCellsMatch]
  | cons p cells ih =>
      rcases p with ⟨e, partner⟩
      cases partner with
      | none => simp [allCellsMatch]
      | some a =>
          rw [allCellsMatch, bind_eq_ok_iff]
          constructor
          · rintro ⟨matched, hmatched, hrest⟩
            cases matched with
            | false => cases hrest
            | true =>
                intro p hp
                rcases List.mem_cons.mp hp with rfl | hp
                · exact ⟨a, rfl, hmatched⟩
                · exact ih.mp hrest p hp
          · intro h
            rcases h _ List.mem_cons_self with ⟨a', ha', hmatched⟩
            cases ha'
            refine ⟨true, hmatched, ih.mpr ?_⟩
            intro p hp
            exact h p (List.mem_cons_of_mem _ hp)

theorem exists_allCellsMatch_eq_ok
    {mode : ConversionMode} {cells : List (Value × Option Value)}
    (h : ∀ p ∈ cells, ∀ a, p.2 = some a → a.isPredicate = false) :
    ∃ b, allCellsMatch mode cells = .ok b := by
  induction cells with
  | nil => exact ⟨true, rfl⟩
  | cons p cells ih =>
      rcases p with ⟨e, partner⟩
      cases partner with
      | none => exact ⟨false, rfl⟩
      | some a =>
          obtain ⟨v, hv⟩ :=
            Value.exists_evaluate_eq_ok (h _ List.mem_cons_self a rfl)
          have hrest := ih (List.forall_mem_cons.mp h).2
          rw [allCellsMatch, Value.matchesCell, hv]
          cases hadmits : e.admits v mode with
          | false => exact ⟨false, by simp [pure, Except.pure, hadmits]⟩
          | true => simpa [pure, Except.pure, hadmits] using hrest

theorem allCellsMatch_zip_eq_ok_true_iff
    {mode : ConversionMode} {expected actual : List Value}
    (hlength : expected.length = actual.length) :
    allCellsMatch mode (expected.zip (actual.map some)) = .ok true ↔
      ∀ (i : Nat) (cell : Value), expected[i]? = some cell →
        ∃ partner, actual[i]? = some partner ∧ cell.matchesCell partner mode = .ok true := by
  rw [allCellsMatch_eq_ok_true_iff]
  constructor
  · intro h i cell hcell
    have hi : i < actual.length := by
      rw [← hlength]
      exact (List.getElem?_eq_some_iff.mp hcell).1
    have hmem : (cell, some actual[i]) ∈ expected.zip (actual.map some) := by
      apply List.mem_of_getElem? (i := i)
      simp [List.getElem?_zip_eq_some, hcell, hi]
    rcases h _ hmem with ⟨partner, hpartner, hmatched⟩
    cases hpartner
    exact ⟨actual[i], List.getElem?_eq_getElem hi, hmatched⟩
  · intro h p hp
    rcases List.mem_iff_getElem?.mp hp with ⟨i, hi⟩
    rcases List.getElem?_zip_eq_some.mp hi with ⟨hcell, hpartner⟩
    rcases h i p.1 hcell with ⟨partner, hactual, hmatched⟩
    rw [List.getElem?_map, hactual, Option.map_some, Option.some.injEq] at hpartner
    exact ⟨partner, hpartner.symm, hmatched⟩

theorem allCellsMatch_targets_eq_ok_true_iff
    {mode : ConversionMode} {expected actual : List Value} {targets : List (Option Nat)} :
    allCellsMatch mode ((expected.zip targets).filterMap fun p =>
        p.2.map fun j => (p.1, actual[j]?)) = .ok true ↔
      ∀ (i j : Nat) (cell : Value), expected[i]? = some cell → targets[i]? = some (some j) →
        ∃ partner, actual[j]? = some partner ∧ cell.matchesCell partner mode = .ok true := by
  rw [allCellsMatch_eq_ok_true_iff]
  constructor
  · intro h i j cell hcell hj
    have hmem : (cell, actual[j]?) ∈ (expected.zip targets).filterMap fun p =>
        p.2.map fun j => (p.1, actual[j]?) := by
      refine List.mem_filterMap.mpr ⟨(cell, some j), ?_, rfl⟩
      exact List.mem_of_getElem? (List.getElem?_zip_eq_some.mpr ⟨hcell, hj⟩)
    exact h _ hmem
  · intro h q hq
    rcases List.mem_filterMap.mp hq with ⟨p, hp, hpq⟩
    rcases Option.map_eq_some_iff.mp hpq with ⟨j, hj, rfl⟩
    rcases List.mem_iff_getElem?.mp hp with ⟨i, hi⟩
    rcases List.getElem?_zip_eq_some.mp hi with ⟨hcell, htarget⟩
    exact h i j p.1 hcell (hj ▸ htarget)

namespace CellMatcher

variable {m : CellMatcher}

/-- The partner of the expected cell at `i` is the actual cell at `j`, and it is admitted. -/
theorem rowsMatch_eq_ok_true_iff {e a : Row} :
    m.rowsMatch e a = .ok true ↔
      (m.projection = .positional → e.cells.length = a.cells.length) ∧
      ∀ i j cell, e.cells[i]? = some cell → m.actualIndex? i = some j →
        ∃ partner, a.cells[j]? = some partner ∧
          cell.matchesCell partner m.conversion = .ok true := by
  rw [rowsMatch, MatchError.lift_eq_ok_iff, cellsMatch]
  unfold actualIndex?
  cases m.projection with
  | positional =>
      dsimp only
      by_cases hlength : e.cells.length = a.cells.length
      · rw [if_pos hlength, allCellsMatch_zip_eq_ok_true_iff hlength]
        constructor
        · intro h
          constructor
          · intro _
            exact hlength
          · intro i j cell hcell hj
            cases hj
            exact h i cell hcell
        · intro h i cell hcell
          exact h.2 i i cell hcell rfl
      · rw [if_neg hlength]
        constructor
        · intro h
          cases h
        · intro h
          exact absurd (h.1 rfl) hlength
  | byName targets =>
      have htargets : ∀ i j : Nat, targets[i]?.join = some j ↔ targets[i]? = some (some j) := by
        intro i j
        exact Option.join_eq_some_iff
      simp only [htargets, reduceCtorEq, false_implies, true_and]
      exact allCellsMatch_targets_eq_ok_true_iff

theorem exists_rowsMatch_eq_ok {e a : Row} (ha : a.hasPredicate = false) :
    ∃ b, m.rowsMatch e a = .ok b := by
  have hcells : ∀ cell ∈ a.cells, cell.isPredicate = false := by
    simpa [Row.hasPredicate] using ha
  simp only [rowsMatch, MatchError.lift_eq_ok_iff]
  unfold cellsMatch
  cases m.projection with
  | positional =>
      dsimp only
      split
      · apply exists_allCellsMatch_eq_ok
        rintro ⟨e, partner⟩ hp cell rfl
        rcases List.mem_map.mp (List.of_mem_zip hp).2 with ⟨cell', hmem, hcell'⟩
        cases hcell'
        exact hcells _ hmem
      · exact ⟨false, rfl⟩
  | byName targets =>
      apply exists_allCellsMatch_eq_ok
      rintro p hp cell hcell
      rcases List.mem_filterMap.mp hp with ⟨⟨e, target⟩, _, hp⟩
      rcases Option.map_eq_some_iff.mp hp with ⟨j, _, rfl⟩
      exact hcells cell (List.mem_of_getElem? hcell)

/-- An actual cell that some expected cell is compared with is no predicate. -/
theorem isPredicate_eq_false_of_rowsMatch
    {e a : Row} (h : m.rowsMatch e a = .ok true)
    {i j : Nat} (hi : i < e.cells.length) (hj : m.actualIndex? i = some j)
    {cell : Value} (hcell : a.cells[j]? = some cell) :
    cell.isPredicate = false := by
  obtain ⟨partner, hpartner, hmatched⟩ :=
    (rowsMatch_eq_ok_true_iff.mp h).2 i j e.cells[i] (List.getElem?_eq_getElem hi) hj
  rcases Value.matchesCell_eq_ok_true_iff.mp hmatched with ⟨v, hv, _⟩
  obtain rfl : partner = cell := Option.some.inj (hpartner.symm.trans hcell)
  exact Value.isPredicate_eq_false_of_evaluate hv

/-- Two rows that match one expected row without predicates are matched by the same expected
rows. -/
theorem rowsMatch_exchange
    {e x a a' : Row} (he : e.hasPredicate = false)
    (hlength : x.cells.length = e.cells.length)
    (hx : ∀ p, Value.predicate p ∈ x.cells → p.AgreesOn m.conversion a a')
    (ha : m.rowsMatch e a = .ok true) (ha' : m.rowsMatch e a' = .ok true)
    (hxa : m.rowsMatch x a = .ok true) :
    m.rowsMatch x a' = .ok true := by
  have hcells : ∀ cell ∈ e.cells, cell.isPredicate = false := by
    simpa [Row.hasPredicate] using he
  rw [rowsMatch_eq_ok_true_iff] at ha ha' hxa ⊢
  refine ⟨?_, ?_⟩
  · intro hpositional
    rw [hlength]
    exact ha'.1 hpositional
  intro i j cell hcell hj
  have hi : i < e.cells.length := by
    rw [← hlength]
    exact (List.getElem?_eq_some_iff.mp hcell).1
  obtain ⟨partner, hpartner, hmatched⟩ :=
    ha.2 i j e.cells[i] (List.getElem?_eq_getElem hi) hj
  obtain ⟨partner', hpartner', hmatched'⟩ :=
    ha'.2 i j e.cells[i] (List.getElem?_eq_getElem hi) hj
  rcases hxa.2 i j cell hcell hj with ⟨same, hsame, hxmatched⟩
  obtain rfl : partner = same := Option.some.inj (hpartner.symm.trans hsame)
  rw [Value.matchesCell_eq_ok_true_iff] at hmatched hmatched' hxmatched
  rcases hmatched with ⟨v, hv, hadmits⟩
  rcases hmatched' with ⟨v', hv', hadmits'⟩
  rcases hxmatched with ⟨w, hw, hxadmits⟩
  obtain rfl : v = w := Except.ok.inj (hv.symm.trans hw)
  refine ⟨partner', hpartner', ?_⟩
  rw [Value.matchesCell_eq_ok_true_iff]
  have hagree : ∀ p, cell = .predicate p → ∀ b b', v = some b → v' = some b' →
      b.equivalent b' m.conversion = true → p.test (some b) = p.test (some b') := by
    rintro p rfl b b' rfl rfl
    obtain rfl := Value.eq_literal_of_evaluate hv
    obtain rfl := Value.eq_literal_of_evaluate hv'
    exact hx p (List.mem_of_getElem? hcell) j b b' hpartner hpartner'
  have hcongr := Value.admits_congr (hcells _ (List.getElem_mem hi)) hagree hadmits hadmits'
  exact ⟨v', hv', hcongr ▸ hxadmits⟩

end CellMatcher

end TableDiff
