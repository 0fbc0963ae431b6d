import TableDiff.Comparison
import TableDiff.Proofs.Columns
import TableDiff.Proofs.KeyGroups

/-!
# What an outcome says

In every outcome each row of either table is on exactly one line.  A positive verdict says more: the
lines are a pairing of all rows of both tables in which all pairs match, no column is without a
partner, and so no predicate is left among the actual cells.
-/

namespace TableDiff

/-- All three ways of comparing rows back their verdicts. -/
theorem matchRows_sound {config : Config} {m : CellMatcher} {s t : Table} {r : RowMatch}
    (h : matchRows config m s t = .ok r) :
    r.Sound (m.MatchesAt s t) (List.range s.rows.length) (List.range t.rows.length) := by
  unfold matchRows at h
  cases hmode : config.rowMode with
  | ordered =>
      rw [hmode] at h
      exact RowMatch.ordered_sound h
  | anyOrder =>
      rw [hmode] at h
      exact RowMatch.anyOrder_ofTable_sound h
  | byKey =>
      rw [hmode] at h
      exact RowMatch.byKey_sound h

namespace Comparison

variable {c : Comparison} {o : Outcome}

theorem columnsMatch_of_byKey (hmode : c.config.rowMode = .byKey) :
    c.columnsMatch = keyColumnsMatch c.config c.expected.columns c.actual.columns := by
  rw [columnsMatch, hmode]

theorem columnsMatch_of_ne_byKey (hmode : c.config.rowMode ≠ .byKey) :
    c.columnsMatch = TableDiff.columnsMatch c.config c.expected.columns c.actual.columns := by
  unfold columnsMatch
  split
  · next hkey => exact absurd hkey hmode
  · rfl

theorem columnsMatch_of_columnsMatch_eq_ok_true (h : c.columnsMatch = .ok true) :
    TableDiff.columnsMatch c.config c.expected.columns c.actual.columns = .ok true := by
  unfold columnsMatch at h
  split at h
  · exact columnsMatch_of_keyColumnsMatch h
  · exact h

/-- The rows are compared if the columns match, and lined up by position if they do not. -/
theorem outcome_eq_ok (h : c.outcome = .ok o) :
    o.columns = pairColumns c.config c.expected.columns c.actual.columns ∧
      ((c.columnsMatch = .ok true ∧
          matchRows c.config c.cellMatcher c.expected c.actual = .ok ⟨o.matched, o.rows⟩) ∨
        (o.matched = false ∧
          o.rows = DiffLine.positional c.expected.rows.length c.actual.rows.length)) := by
  rcases bind_eq_ok_iff.mp h with ⟨_, _, h⟩
  rcases bind_eq_ok_iff.mp h with ⟨matched, hcolumns, h⟩
  cases matched with
  | false =>
      cases h
      exact ⟨rfl, .inr ⟨rfl, rfl⟩⟩
  | true =>
      rcases bind_eq_ok_iff.mp h with ⟨r, hr, hpure⟩
      cases hpure
      exact ⟨rfl, .inl ⟨hcolumns, hr⟩⟩

theorem outcome_of_columnsMatch
    (hvalid : c.config.validate = .ok ()) (hcolumns : c.columnsMatch = .ok true) :
    c.outcome =
      (matchRows c.config c.cellMatcher c.expected c.actual).map fun r =>
        ⟨r.matched, r.lines, pairColumns c.config c.expected.columns c.actual.columns⟩ := by
  rw [outcome, hvalid, ok_bind, hcolumns, ok_bind, if_pos rfl]
  cases matchRows c.config c.cellMatcher c.expected c.actual with
  | ok r => rfl
  | error e => rfl

theorem isMatch_of_columnsMatch
    (hvalid : c.config.validate = .ok ()) (hcolumns : c.columnsMatch = .ok true) :
    c.isMatch =
      (matchRows c.config c.cellMatcher c.expected c.actual).map fun r => r.matched := by
  rw [isMatch, outcome_of_columnsMatch hvalid hcolumns]
  cases matchRows c.config c.cellMatcher c.expected c.actual with
  | ok r => rfl
  | error e => rfl

theorem isMatch_eq_ok_true_iff :
    c.isMatch = .ok true ↔ ∃ o, c.outcome = .ok o ∧ o.matched = true := by
  rw [isMatch, bind_eq_ok_iff]
  simp [pure, Except.pure]

theorem validate_of_outcome_eq_ok (h : c.outcome = .ok o) :
    c.config.validate = .ok () := by
  obtain ⟨_, hvalid, _⟩ := bind_eq_ok_iff.mp h
  exact hvalid

theorem exists_columnsMatch_of_outcome (h : c.outcome = .ok o) : ∃ b, c.columnsMatch = .ok b := by
  obtain ⟨_, _, h⟩ := bind_eq_ok_iff.mp h
  obtain ⟨b, hcolumns, _⟩ := bind_eq_ok_iff.mp h
  exact ⟨b, hcolumns⟩

/-- A positive verdict is one on the columns and then one on the rows. -/
theorem isMatch_eq_ok_true_iff_matchRows :
    c.isMatch = .ok true ↔ c.config.validate = .ok () ∧ c.columnsMatch = .ok true ∧
      ∃ r, matchRows c.config c.cellMatcher c.expected c.actual = .ok r ∧ r.matched = true := by
  constructor
  · intro h
    obtain ⟨o, ho, hmatched⟩ := isMatch_eq_ok_true_iff.mp h
    rcases (outcome_eq_ok ho).2 with ⟨hcolumns, hrows⟩ | ⟨hunmatched, _⟩
    · exact ⟨validate_of_outcome_eq_ok ho, hcolumns, _, hrows, hmatched⟩
    · rw [hmatched] at hunmatched
      cases hunmatched
  · rintro ⟨hvalid, hcolumns, r, hr, hmatched⟩
    rw [isMatch_of_columnsMatch hvalid hcolumns, hr]
    exact congrArg Except.ok hmatched

theorem outcome_of_validate_eq_error {e : MatchError} (hvalid : c.config.validate = .error e) :
    c.outcome = .error e := by
  rw [outcome, hvalid, error_bind]

theorem outcome_of_columnsMatch_eq_error {e : MatchError}
    (hvalid : c.config.validate = .ok ()) (hcolumns : c.columnsMatch = .error e) :
    c.outcome = .error e := by
  rw [outcome, hvalid, ok_bind, hcolumns, error_bind]

theorem outcome_of_columnsMatch_eq_false
    (hvalid : c.config.validate = .ok ()) (hcolumns : c.columnsMatch = .ok false) :
    c.outcome = .ok ⟨false, DiffLine.positional c.expected.rows.length c.actual.rows.length,
      pairColumns c.config c.expected.columns c.actual.columns⟩ := by
  rw [outcome, hvalid, ok_bind, hcolumns, ok_bind]
  rfl

theorem outcome_sound (h : c.outcome = .ok o) :
    RowMatch.Sound (c.cellMatcher.MatchesAt c.expected c.actual)
      (List.range c.expected.rows.length) (List.range c.actual.rows.length)
      ⟨o.matched, o.rows⟩ := by
  rcases (outcome_eq_ok h).2 with ⟨_, hrows⟩ | ⟨hmatched, hrows⟩
  · exact matchRows_sound hrows
  · rw [hmatched, hrows]
    exact .of_unmatched (DiffLine.covers_positional _ _)

theorem columnsMatch_of_matched (h : c.outcome = .ok o) (hmatched : o.matched = true) :
    TableDiff.columnsMatch c.config c.expected.columns c.actual.columns = .ok true ∧
      matchRows c.config c.cellMatcher c.expected c.actual = .ok ⟨o.matched, o.rows⟩ := by
  rcases (outcome_eq_ok h).2 with ⟨hcolumns, hrows⟩ | ⟨hunmatched, _⟩
  · exact ⟨columnsMatch_of_columnsMatch_eq_ok_true hcolumns, hrows⟩
  · rw [hmatched] at hunmatched
    cases hunmatched

/-- Rows that are paired and whose columns all have partners have been evaluated completely. -/
theorem predicateFree_of_perfectMatching
    (hexpected : c.expected.Built) (hactual : c.actual.Built)
    (hcolumns : TableDiff.columnsMatch c.config c.expected.columns c.actual.columns = .ok true)
    {xs : List Nat} {pairs : List (Nat × Nat)}
    (hpairs : PerfectMatching (c.cellMatcher.MatchesAt c.expected c.actual) xs
      (List.range c.actual.rows.length) pairs) :
    c.actual.PredicateFree := by
  intro row hrow
  rcases List.mem_iff_getElem?.mp hrow with ⟨j, hj⟩
  have hpaired : j ∈ pairs.map Prod.snd := by
    apply hpairs.right.symm.subset
    exact List.mem_range.mpr (List.getElem?_eq_some_iff.mp hj).1
  rcases List.mem_map.mp hpaired with ⟨p, hp, rfl⟩
  rcases hpairs.related p hp with ⟨e, a, he, ha, hmatch⟩
  have harow : a = row := Option.some.inj (ha.symm.trans hj)
  rw [harow] at hmatch
  have hewidth := hexpected.length_cells (List.mem_of_getElem? he)
  have hawidth := hactual.length_cells hrow
  rw [Row.hasPredicate, List.any_eq_false]
  intro cell hcell
  rcases List.mem_iff_getElem?.mp hcell with ⟨k, hk⟩
  have hlt := (List.getElem?_eq_some_iff.mp hk).1
  rcases exists_actualIndex?_eq hcolumns (j := k) (by omega) with ⟨i, hi, htarget⟩
  have hconcrete := CellMatcher.isPredicate_eq_false_of_rowsMatch hmatch
    (by omega) htarget hk
  simp [hconcrete]

theorem lines_eq_of_ordered (h : c.outcome = .ok o) (hmatched : o.matched = true)
    (hmode : c.config.rowMode = .ordered) :
    ∀ line ∈ o.rows, line.expected? = line.actual? := by
  have hrows := (columnsMatch_of_matched h hmatched).2
  rw [matchRows, hmode] at hrows
  have hlines := RowMatch.ordered_lines_of_matched hrows hmatched
  intro line hline
  have hline : line ∈ (List.range c.expected.rows.length).map fun i => DiffLine.both i i :=
    hlines ▸ hline
  rcases List.mem_map.mp hline with ⟨i, _, rfl⟩
  rfl

/-- A positive verdict is a pairing of all rows in which all pairs match, over columns that all
have partners. -/
theorem outcome_matched_backed
    (hexpected : c.expected.Built) (hactual : c.actual.Built)
    (h : c.outcome = .ok o) (hmatched : o.matched = true) :
    (∃ pairs : List (Nat × Nat), o.rows = pairs.map (fun p => DiffLine.both p.1 p.2) ∧
        PerfectMatching (c.cellMatcher.MatchesAt c.expected c.actual)
          (List.range c.expected.rows.length) (List.range c.actual.rows.length) pairs) ∧
      (∀ line ∈ o.rows, line.isComplete = true) ∧
      (∀ line ∈ o.columns, line.isComplete = true) ∧
      c.actual.PredicateFree ∧
      (c.config.rowMode = .ordered → ∀ line ∈ o.rows, line.expected? = line.actual?) := by
  have hcolumns := (columnsMatch_of_matched h hmatched).1
  rcases (outcome_sound h).perfectMatching hmatched with ⟨pairs, hlines, hpairs⟩
  have hlines : o.rows = pairs.map (fun p => DiffLine.both p.1 p.2) := hlines
  refine ⟨⟨pairs, hlines, hpairs⟩, ?_, ?_, ?_, ?_⟩
  · rw [hlines]
    intro line hline
    rcases List.mem_map.mp hline with ⟨p, _, rfl⟩
    rfl
  · rw [(outcome_eq_ok h).1]
    exact all_isComplete_pairColumns hcolumns
  · exact predicateFree_of_perfectMatching hexpected hactual hcolumns hpairs
  · exact lines_eq_of_ordered h hmatched

/-- Any row and a row with `true` against the same two rows the other way round. -/
def anyThenTrue : Comparison where
  config := { rowMode := .anyOrder }
  expected := .anyThenTrue
  actual := .trueThenFalse

theorem outcome_anyThenTrue :
    anyThenTrue.outcome = .ok ⟨true, [.both 0 1, .both 1 0], [.both 0 0]⟩ := by
  cbv

theorem outcome_matched_backed_anyThenTrue :
    ∃ o, anyThenTrue.outcome = .ok o ∧ o.matched = true ∧
      (∃ pairs : List (Nat × Nat), o.rows = pairs.map (fun p => DiffLine.both p.1 p.2) ∧
        PerfectMatching (anyThenTrue.cellMatcher.MatchesAt .anyThenTrue .trueThenFalse)
          (List.range 2) (List.range 2) pairs) ∧
      (∀ line ∈ o.rows, line.isComplete = true) ∧
      (∀ line ∈ o.columns, line.isComplete = true) ∧
      Table.trueThenFalse.PredicateFree ∧
      (RowMode.anyOrder = .ordered → ∀ line ∈ o.rows, line.expected? = line.actual?) := by
  refine ⟨_, outcome_anyThenTrue, rfl, ?_⟩
  exact outcome_matched_backed Table.built_anyThenTrue Table.built_trueThenFalse
    outcome_anyThenTrue rfl

/-! ## Every row on one line -/

/-- Each row of either table is on exactly one line, and so the two sides have equally many rows
with a partner. -/
theorem outcome_rows_cover (h : c.outcome = .ok o) :
    DiffLine.Covers o.rows (List.range c.expected.rows.length)
        (List.range c.actual.rows.length) ∧
      o.unmatchedExpected ≤ c.expected.rows.length ∧
      o.unmatchedActual ≤ c.actual.rows.length ∧
      c.expected.rows.length - o.unmatchedExpected =
        c.actual.rows.length - o.unmatchedActual := by
  have hcovers : DiffLine.Covers o.rows _ _ := (outcome_sound h).covers
  have hexpected := hcovers.countP_actual?_isNone_le
  have hactual := hcovers.countP_expected?_isNone_le
  have hexpectedLines := hcovers.countP_expected?_isNone
  have hactualLines := hcovers.countP_actual?_isNone
  rw [List.length_range] at hexpected hactual hexpectedLines hactualLines
  refine ⟨hcovers, hexpected, hactual, ?_⟩
  unfold Outcome.unmatchedExpected Outcome.unmatchedActual
  omega

theorem outcome_rows_cover_anyThenTrue :
    ∃ o, anyThenTrue.outcome = .ok o ∧
      DiffLine.Covers o.rows (List.range 2) (List.range 2) ∧
      o.unmatchedExpected ≤ 2 ∧ o.unmatchedActual ≤ 2 ∧
      2 - o.unmatchedExpected = 2 - o.unmatchedActual := by
  refine ⟨_, outcome_anyThenTrue, ?_⟩
  exact outcome_rows_cover outcome_anyThenTrue

end Comparison

end TableDiff
