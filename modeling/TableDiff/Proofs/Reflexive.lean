import TableDiff.Proofs.KeyGroups.Verdict

/-!
# Rows compared with themselves

A row without predicates matches itself.  In the comparison of a list of rows with itself every row
is paired with itself, even if it matches others as well: both sides are in the same order, so the
first row that is left is always the row itself.
-/

namespace TableDiff

theorem Value.matchesCell_self {v : Value} (h : v.isPredicate = false) (mode : ConversionMode) :
    v.matchesCell v mode = .ok true := by
  rw [matchesCell_eq_ok_true_iff]
  cases v with
  | null => exact ⟨none, rfl, rfl⟩
  | literal l => exact ⟨some l, rfl, Literal.equivalent_refl l mode⟩
  | predicate p => cases h

/-- Every cell that has a partner column has that of its own column. -/
def CellMatcher.Straight (m : CellMatcher) : Prop := ∀ i j, m.actualIndex? i = some j → j = i

theorem CellMatcher.Straight.rowsMatch_self {m : CellMatcher} (hm : m.Straight) {row : Row}
    (h : row.hasPredicate = false) : m.rowsMatch row row = .ok true := by
  rw [rowsMatch_eq_ok_true_iff]
  constructor
  · intro _
    rfl
  intro i j cell hcell hj
  obtain rfl := hm i j hj
  have hfree : cell.isPredicate = false := by
    have hcells := List.any_eq_false.mp h cell (List.mem_of_getElem? hcell)
    simpa using hcells
  exact ⟨cell, hcell, Value.matchesCell_self hfree m.conversion⟩

/-! ## Pairing rows with themselves -/

namespace Entry

/-- The line on which an entry stands beside itself. -/
def line (e : Entry) : DiffLine := .both e.index e.index

theorem map_line_ofTable (t : Table) :
    (ofTable t).map line = (List.range t.rows.length).map fun i => DiffLine.both i i := by
  rw [← map_index_ofTable, List.map_map]
  rfl

end Entry

section

variable {m : CellMatcher} {entries : List Entry}

theorem pairGreedily_self (h : ∀ e ∈ entries, m.rowsMatch e.row e.row = .ok true) :
    pairGreedily m entries entries = .ok (entries.map fun e => (e, e), []) := by
  induction entries with
  | nil => rfl
  | cons e entries ih =>
      rw [List.forall_mem_cons] at h
      exact pairGreedily_cons_of_some (takeMatch_cons_of_matches h.1) (ih h.2)

theorem pairLiteralRows_self (h : ∀ e ∈ entries, m.rowsMatch e.row e.row = .ok true) :
    pairLiteralRows m entries entries =
      .ok ((canonicalOrder entries).map fun e => (e, e), []) := by
  have hordered : ∀ e ∈ canonicalOrder entries, m.rowsMatch e.row e.row = .ok true := by
    intro e he
    exact h e ((canonicalOrder_perm entries).mem_iff.mp he)
  rw [pairLiteralRows, pairGreedily_self hordered]
  simp [sortBy, pure, Except.pure]

variable (limit : Nat)

theorem matchAnyOrder_self (h : ∀ e ∈ entries, m.rowsMatch e.row e.row = .ok true)
    (hliteral : ∀ e ∈ entries, e.row.hasPredicate = false)
    (hnodup : (entries.map (·.index)).Nodup) :
    ∃ l, matchAnyOrder m limit entries entries = .ok l ∧ Pairing.Distinct l.toList ∧
      l.toList.Perm (entries.map fun e => e.pair e) := by
  have hperm := (canonicalOrder_perm entries).map fun e => e.pair e
  have hindices := (canonicalOrder_perm entries).map (·.index)
  have hdistinct : Pairing.Distinct ((canonicalOrder entries).map fun e => e.pair e) := by
    constructor
    · rw [List.map_map]
      exact hindices.nodup_iff.mpr hnodup
    · rw [List.map_map]
      exact hindices.nodup_iff.mpr hnodup
  obtain ⟨l, hl⟩ := Pairing.ofList_eq_ok hdistinct
  obtain ⟨hlist, _⟩ := Pairing.ofList_eq_ok_iff.mp hl
  refine ⟨l, ?_, hlist ▸ hdistinct, hlist ▸ hperm⟩
  rw [matchAnyOrder_of_literal m limit entries hliteral, pairLiteralRows_self h, ok_bind]
  dsimp only
  rw [List.map_map]
  exact hl

end

namespace RowMatch

section

variable {m : CellMatcher} {entries : List Entry} (limit : Nat)

theorem anyOrder_self (h : ∀ e ∈ entries, m.rowsMatch e.row e.row = .ok true)
    (hliteral : ∀ e ∈ entries, e.row.hasPredicate = false)
    (hnodup : (entries.map (·.index)).Nodup) :
    anyOrder m limit entries entries = .ok ⟨true, entries.map Entry.line⟩ := by
  obtain ⟨l, hl, hdistinct, hperm⟩ := matchAnyOrder_self limit h hliteral hnodup
  have hlines : l.aligned (entries.map (·.index)) (entries.map (·.index)) =
      entries.map Entry.line := by
    rw [Pairing.aligned_self hdistinct, List.map_map]
    · rfl
    · intro i hi
      obtain ⟨e, he, rfl⟩ := List.mem_map.mp hi
      exact hperm.mem_iff.mpr (List.mem_map.mpr ⟨e, he, rfl⟩)
  have hcomplete : (entries.map Entry.line).all DiffLine.isComplete = true := by
    rw [List.all_map]
    apply List.all_eq_true.mpr
    intro e _
    rfl
  rw [anyOrder, hl, ok_bind]
  dsimp only
  rw [hlines, hcomplete]
  rfl

theorem ofGroup_self {g : KeyGroup} (hsame : g.actual = g.expected)
    (h : ∀ e ∈ g.expected, m.rowsMatch e.row e.row = .ok true)
    (hliteral : ∀ e ∈ g.expected, e.row.hasPredicate = false)
    (hnodup : (g.expected.map (·.index)).Nodup) :
    ofGroup m limit g = .ok ⟨true, g.expected.map Entry.line⟩ := by
  by_cases hsingle : g.expected.length = 1
  · obtain ⟨e, he⟩ := List.length_eq_one_iff.mp hsingle
    have hmatch := h e (he ▸ List.mem_singleton_self e)
    rw [ofGroup_singleton m limit he (hsame.trans he), hmatch, he]
    rfl
  · rw [ofGroup_of_length_eq m limit hsingle (congrArg List.length hsame.symm), hsame,
      anyOrder_self limit h hliteral hnodup]

end

section

variable {m : CellMatcher} {t : Table}

theorem byKey_self (config : Config) (hm : m.Straight) (ht : t.PredicateFree) :
    ∃ r, byKey config m t t = .ok r ∧ r.matched = true ∧
      r.lines.Perm ((List.range t.rows.length).map fun i => DiffLine.both i i) := by
  obtain ⟨keyed, hkeyed⟩ := exists_keyedEntries_eq_ok config m ht.concreteKey
  have hentries := keyedEntries_eq_ok hkeyed
  have hresults : (keyGroups keyed keyed).mapM (ofGroup m config.permutationLimit) =
      .ok ((keyGroups keyed keyed).map fun g => ⟨true, g.expected.map Entry.line⟩) := by
    apply mapM_eq_ok_map
    intro g hg
    have hof := isOf_of_mem_keyGroups hkeyed hkeyed hg
    have hfree := hasPredicate_of_subset_ofTable ht hof.expected.subset
    have hself : ∀ e ∈ g.expected, m.rowsMatch e.row e.row = .ok true := by
      intro e he
      exact hm.rowsMatch_self (hfree e he)
    rw [keyGroups_eq] at hg
    obtain ⟨key, _, rfl⟩ := List.mem_map.mp hg
    exact ofGroup_self config.permutationLimit rfl hself hfree hof.nodup_expected
  have hlines := ((keyGroups_expected_perm keyed keyed).trans (.of_eq hentries)).map Entry.line
  rw [List.map_flatMap, Entry.map_line_ofTable] at hlines
  refine ⟨_, by rw [byKey, hkeyed, ok_bind, ok_bind, hresults]; rfl, ?_, ?_⟩
  · rw [matched_foldl_append, List.all_map]
    apply List.all_eq_true.mpr
    intro g _
    rfl
  · rw [lines_foldl_append, List.flatMap_map]
    exact hlines

theorem ordered_self (hm : m.Straight) (ht : t.PredicateFree) :
    ordered m t t = .ok ⟨true, (List.range t.rows.length).map fun i => DiffLine.both i i⟩ := by
  have hrows : allRowsMatch m (t.rows.zip t.rows) = .ok true := by
    rw [allRowsMatch_eq_ok_true_iff, List.zip_eq_zipWith, List.zipWith_self]
    intro p hp
    obtain ⟨row, hrow, rfl⟩ := List.mem_map.mp hp
    exact hm.rowsMatch_self (ht row hrow)
  rw [ordered, if_pos rfl, hrows, DiffLine.positional_self]
  rfl

end

end RowMatch

/-- Rows compared with themselves match, each paired with itself; unless they are grouped by key the
lines are in row order. -/
theorem matchRows_self (config : Config) {m : CellMatcher} {t : Table} (hm : m.Straight)
    (ht : t.PredicateFree) :
    ∃ r, matchRows config m t t = .ok r ∧ r.matched = true ∧
      r.lines.Perm ((List.range t.rows.length).map fun i => DiffLine.both i i) ∧
      (config.rowMode ≠ .byKey →
        r.lines = (List.range t.rows.length).map fun i => DiffLine.both i i) := by
  unfold matchRows
  cases config.rowMode with
  | ordered =>
      refine ⟨_, RowMatch.ordered_self hm ht, rfl, .refl _, ?_⟩
      intro _
      rfl
  | anyOrder =>
      have hfree := hasPredicate_of_subset_ofTable ht (List.Subset.refl (Entry.ofTable t))
      have hself : ∀ e ∈ Entry.ofTable t, m.rowsMatch e.row e.row = .ok true := by
        intro e he
        exact hm.rowsMatch_self (hfree e he)
      have hrows := RowMatch.anyOrder_self config.permutationLimit hself hfree
        (Entry.nodup_map_index_ofTable t)
      rw [Entry.map_line_ofTable] at hrows
      refine ⟨_, hrows, rfl, .refl _, ?_⟩
      intro _
      rfl
  | byKey =>
      obtain ⟨r, hr, hmatched, hlines⟩ := RowMatch.byKey_self config hm ht
      refine ⟨r, hr, hmatched, hlines, ?_⟩
      intro hkey
      exact absurd rfl hkey

end TableDiff
