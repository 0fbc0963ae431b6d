import TableDiff.Proofs.KeyGroups.RowOrder
import TableDiff.Proofs.Outcome.RowModes

/-!
# Reordered rows

Rows that are compared in any order, or by key, may stand in any order in their tables.  Another
order leads to other pairs and to another search, which may meet its limit earlier or later.  It
changes neither the verdict nor the number of rows that stand alone on either side.
-/

namespace TableDiff

section

variable {config : Config} {m : CellMatcher} {s t : Table} {rows rows' : List Row}
  {r r' : RowMatch}

theorem Table.PredicateFree.withRows (h : t.PredicateFree) (hrows : rows.Perm t.rows) :
    (t.withRows rows).PredicateFree := by
  intro row hrow
  exact h row (hrows.subset hrow)

theorem concreteKey_withRows (h : ∀ row ∈ t.rows, t.ConcreteKey row) (hrows : rows.Perm t.rows) :
    ∀ row ∈ (t.withRows rows).rows, (t.withRows rows).ConcreteKey row := by
  intro row hrow
  exact h row (hrows.subset hrow)

theorem sameRows_ofTable_withRows (hrows : rows.Perm t.rows) :
    SameRows (Entry.ofTable t) (Entry.ofTable (t.withRows rows)) := by
  rw [SameRows, Entry.map_row_ofTable, Entry.map_row_ofTable]
  exact hrows.symm

theorem matchRows_tally_eq (hmode : config.rowMode = .anyOrder ∨ config.rowMode = .byKey)
    (hs : s.Built) (hrespect : s.PredicatesRespect m.conversion)
    (h : matchRows config m s t = .ok r)
    (h' : matchRows config m (s.withRows rows) (t.withRows rows') = .ok r')
    (hrows : rows.Perm s.rows) (hrows' : rows'.Perm t.rows) : r.tally = r'.tally := by
  have hsorts := CellMatcher.sorts_answers (t := t) hs hrespect
  rcases hmode with hmode | hmode
  · rw [matchRows, hmode] at h h'
    exact RowMatch.anyOrder_tally_eq hsorts h h' (sameRows_ofTable_withRows hrows)
      (sameRows_ofTable_withRows hrows') (Entry.among_ofTable s) (Entry.among_ofTable t)
      (Entry.nodup_map_index_ofTable _) (Entry.nodup_map_index_ofTable _)
      (Entry.nodup_map_index_ofTable _) (Entry.nodup_map_index_ofTable _)
  · rw [matchRows, hmode] at h h'
    exact RowMatch.byKey_tally_eq hsorts h h' hrows hrows'

/-- Comparisons of rows that no limit stops have one tally, in whatever order the rows stand. -/
theorem exists_matchRows_tally_eq (hmode : config.rowMode = .anyOrder ∨ config.rowMode = .byKey)
    (hs : s.Built) (ht : t.PredicateFree)
    (hconcrete : config.rowMode = .byKey → ∀ row ∈ s.rows, s.ConcreteKey row)
    (hrespect : s.PredicatesRespect m.conversion)
    (hrows : rows.Perm s.rows) (hrows' : rows'.Perm t.rows)
    (hfinished : ∀ limit, matchRows config m s t ≠ .error (.tooManyPermutations limit))
    (hfinished' : ∀ limit, matchRows config m (s.withRows rows) (t.withRows rows') ≠
      .error (.tooManyPermutations limit)) :
    ∃ r r', matchRows config m s t = .ok r ∧
      matchRows config m (s.withRows rows) (t.withRows rows') = .ok r' ∧ r.tally = r'.tally := by
  have hconcrete' : config.rowMode = .byKey →
      ∀ row ∈ (s.withRows rows).rows, (s.withRows rows).ConcreteKey row := by
    intro hkey
    exact concreteKey_withRows (hconcrete hkey) hrows
  have hended := exists_matchRows_eq_ok config m ht hconcrete
  have hended' := exists_matchRows_eq_ok config m (ht.withRows hrows') hconcrete'
  obtain ⟨r, hr⟩ := hended.resolve_right (hfinished _)
  obtain ⟨r', hr'⟩ := hended'.resolve_right (hfinished' _)
  exact ⟨r, r', hr, hr', matchRows_tally_eq hmode hs hrespect hr hr' hrows hrows'⟩

end

namespace Comparison

variable {c : Comparison} {rows rows' : List Row}

/-- The comparison with other rows in both tables. -/
def withRows (c : Comparison) (rows rows' : List Row) : Comparison where
  config := c.config
  expected := c.expected.withRows rows
  actual := c.actual.withRows rows'

/-- Unless a limit stops one of the two, reordering the rows of both tables leads to the same error
in the columns, or to the same verdict and a diff of the same size. -/
theorem outcome_withRows
    (hvalid : c.config.validate = .ok ())
    (hmode : c.config.rowMode = .anyOrder ∨ c.config.rowMode = .byKey)
    (hs : c.expected.Built) (ht : c.actual.PredicateFree)
    (hconcrete : c.config.rowMode = .byKey →
      ∀ row ∈ c.expected.rows, c.expected.ConcreteKey row)
    (hrespect : c.expected.PredicatesRespect c.config.conversion)
    (hrows : rows.Perm c.expected.rows) (hrows' : rows'.Perm c.actual.rows)
    (hfinished : ∀ limit, c.outcome ≠ .error (.tooManyPermutations limit))
    (hfinished' : ∀ limit,
      (c.withRows rows rows').outcome ≠ .error (.tooManyPermutations limit)) :
    (∃ e, c.columnsMatch = .error e ∧ c.outcome = .error e ∧
        (c.withRows rows rows').outcome = .error e) ∨
      ∃ o o', c.outcome = .ok o ∧ (c.withRows rows rows').outcome = .ok o' ∧
        o.matched = o'.matched ∧ o.unmatchedExpected = o'.unmatchedExpected ∧
        o.unmatchedActual = o'.unmatchedActual := by
  have hvalid' : (c.withRows rows rows').config.validate = .ok () := hvalid
  have hsame : (c.withRows rows rows').columnsMatch = c.columnsMatch := rfl
  cases hcolumns : c.columnsMatch with
  | error e =>
      exact .inl ⟨e, rfl, outcome_of_columnsMatch_eq_error hvalid hcolumns,
        outcome_of_columnsMatch_eq_error hvalid' (hsame.trans hcolumns)⟩
  | ok matched =>
      right
      cases matched with
      | false =>
          refine ⟨_, _, outcome_of_columnsMatch_eq_false hvalid hcolumns,
            outcome_of_columnsMatch_eq_false hvalid' (hsame.trans hcolumns), rfl, ?_⟩
          have hlength : (c.withRows rows rows').expected.rows.length = c.expected.rows.length :=
            hrows.length_eq
          have hlength' : (c.withRows rows rows').actual.rows.length = c.actual.rows.length :=
            hrows'.length_eq
          simp only [Outcome.unmatchedExpected, Outcome.unmatchedActual, hlength, hlength',
            and_self]
      | true =>
          rw [outcome_of_columnsMatch hvalid hcolumns] at hfinished ⊢
          rw [outcome_of_columnsMatch hvalid' (hsame.trans hcolumns)] at hfinished' ⊢
          rw [← conversion_ofColumns c.config c.expected.columns c.actual.columns] at hrespect
          have hsearched : ∀ limit, matchRows c.config c.cellMatcher c.expected c.actual ≠
              .error (.tooManyPermutations limit) := by
            intro limit hlimit
            exact hfinished limit (congrArg (Except.map _) hlimit)
          have hsearched' : ∀ limit, matchRows c.config c.cellMatcher (c.expected.withRows rows)
              (c.actual.withRows rows') ≠ .error (.tooManyPermutations limit) := by
            intro limit hlimit
            exact hfinished' limit (congrArg (Except.map _) hlimit)
          obtain ⟨r, r', hr, hr', htally⟩ := exists_matchRows_tally_eq hmode hs ht hconcrete
            hrespect hrows hrows' hsearched hsearched'
          exact ⟨_, _, congrArg (Except.map _) hr, congrArg (Except.map _) hr',
            congrArg Tally.matched htally, congrArg Tally.unmatchedExpected htally,
            congrArg Tally.unmatchedActual htally⟩

theorem outcome_withRows_keyedAnyTrue :
    (∃ e, (groupedByKey {} .keyedAnyTrue .keyedTrueFalse).columnsMatch = .error e ∧
        (groupedByKey {} .keyedAnyTrue .keyedTrueFalse).outcome = .error e ∧
        ((groupedByKey {} .keyedAnyTrue .keyedTrueFalse).withRows
          Table.keyedAnyTrue.rows.reverse Table.keyedTrueFalse.rows.reverse).outcome =
            .error e) ∨
      ∃ o o', (groupedByKey {} .keyedAnyTrue .keyedTrueFalse).outcome = .ok o ∧
        ((groupedByKey {} .keyedAnyTrue .keyedTrueFalse).withRows
          Table.keyedAnyTrue.rows.reverse Table.keyedTrueFalse.rows.reverse).outcome = .ok o' ∧
        o.matched = o'.matched ∧ o.unmatchedExpected = o'.unmatchedExpected ∧
        o.unmatchedActual = o'.unmatchedActual := by
  have hgrouped : (groupedByKey {} .keyedAnyTrue .keyedTrueFalse).outcome =
      .ok ⟨true, [.both 0 2, .both 1 1, .both 2 0], [.both 0 0, .both 1 1]⟩ := by
    cbv
  have hreversed : ((groupedByKey {} .keyedAnyTrue .keyedTrueFalse).withRows
      Table.keyedAnyTrue.rows.reverse Table.keyedTrueFalse.rows.reverse).outcome =
        .ok ⟨true, [.both 0 2, .both 1 1, .both 2 0], [.both 0 0, .both 1 1]⟩ := by
    cbv
  apply outcome_withRows rfl (.inr rfl) Table.built_keyedAnyTrue
    Table.predicateFree_keyedTrueFalse (fun _ => Table.concreteKey_keyedAnyTrue)
    (Table.predicatesRespect_keyedAnyTrue _) (List.reverse_perm _) (List.reverse_perm _)
  · intro limit hlimit
    cases hgrouped.symm.trans hlimit
  · intro limit hlimit
    cases hreversed.symm.trans hlimit

end Comparison

end TableDiff
