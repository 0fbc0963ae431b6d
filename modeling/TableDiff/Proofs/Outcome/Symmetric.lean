import TableDiff.Proofs.Columns.Symmetric
import TableDiff.Proofs.KeyGroups.Symmetric
import TableDiff.Proofs.Outcome.RowCount

/-!
# Tables without predicates compared from either side

Without predicates a comparison is symmetric.  It has an outcome from either side or from none; the
two outcomes have one verdict, and the lines of their rows are the same with their sides exchanged.
-/

namespace TableDiff

namespace RowMatch

variable {m m' : CellMatcher} {s t : Table} {r r' : RowMatch}

theorem ordered_mirrors (hreverses : m.Reverses m' (Entry.ofTable s) (Entry.ofTable t))
    (h : ordered m s t = .ok r) (h' : ordered m' t s = .ok r') : r.Mirrors r' := by
  obtain ⟨hlines, hmatched⟩ := ordered_eq_ok h
  obtain ⟨hlines', hmatched'⟩ := ordered_eq_ok h'
  have hrows : (∀ p ∈ t.rows.zip s.rows, m'.rowsMatch p.1 p.2 = .ok true) ↔
      ∀ p ∈ s.rows.zip t.rows, m.rowsMatch p.1 p.2 = .ok true := by
    rw [← List.zip_swap s.rows t.rows, List.forall_mem_map]
    apply forall₂_congr
    intro p hp
    obtain ⟨e, he, hrow⟩ := Entry.exists_mem_ofTable (List.of_mem_zip hp).1
    obtain ⟨a, ha, hrow'⟩ := Entry.exists_mem_ofTable (List.of_mem_zip hp).2
    rw [Prod.fst_swap, Prod.snd_swap, ← hrow, ← hrow', hreverses e he a ha]
  constructor
  · rw [Bool.eq_iff_iff, hmatched, hmatched', allRowsMatch_eq_ok_true_iff,
      allRowsMatch_eq_ok_true_iff, hrows, eq_comm]
  · rw [hlines, hlines', DiffLine.map_swap_positional]

end RowMatch

theorem matchRows_mirrors {config : Config} {m m' : CellMatcher} {s t : Table} {r r' : RowMatch}
    (hconversion : m'.conversion = m.conversion)
    (hreverses : m.Reverses m' (Entry.ofTable s) (Entry.ofTable t))
    (hs : s.PredicateFree) (ht : t.PredicateFree)
    (h : matchRows config m s t = .ok r) (h' : matchRows config m' t s = .ok r') :
    r.Mirrors r' := by
  unfold matchRows at h h'
  cases hmode : config.rowMode with
  | ordered =>
      rw [hmode] at h h'
      exact RowMatch.ordered_mirrors hreverses h h'
  | anyOrder =>
      rw [hmode] at h h'
      exact RowMatch.anyOrder_mirrors hreverses
        (hasPredicate_of_subset_ofTable hs (List.Subset.refl _))
        (hasPredicate_of_subset_ofTable ht (List.Subset.refl _))
        (Entry.nodup_map_index_ofTable s) (Entry.nodup_map_index_ofTable t) h h'
  | byKey =>
      rw [hmode] at h h'
      exact RowMatch.byKey_mirrors hconversion hreverses hs ht h h'

namespace Comparison

variable {c : Comparison} {o : Outcome}

theorem reverses_cellMatcher (hcolumns : c.columnsMatch = .ok true)
    (hs : c.expected.Built) (ht : c.actual.Built)
    (hfree : c.expected.PredicateFree) (hfree' : c.actual.PredicateFree) :
    c.cellMatcher.Reverses c.swap.cellMatcher (Entry.ofTable c.expected)
      (Entry.ofTable c.actual) := by
  intro e he a ha
  have herow := Entry.row_mem_of_mem_ofTable he
  have harow := Entry.row_mem_of_mem_ofTable ha
  have hall := columnsMatch_of_columnsMatch_eq_ok_true hcolumns
  exact CellMatcher.rowsMatch_ofColumns_swap hall hs ht herow harow (hfree _ herow)
    (hfree' _ harow)

theorem exists_outcome_swap (hs : c.expected.Built) (ht : c.actual.Built)
    (hfree : c.expected.PredicateFree) (hfree' : c.actual.PredicateFree)
    (h : c.outcome = .ok o) :
    ∃ o', c.swap.outcome = .ok o' ∧ o'.matched = o.matched ∧
      o'.rows.Perm (o.rows.map DiffLine.swap) := by
  have hvalid := validate_of_outcome_eq_ok h
  obtain ⟨b, hcolumns⟩ := exists_columnsMatch_of_outcome h
  have hcolumns' := columnsMatch_swap hcolumns
  cases b with
  | false =>
      rw [outcome_of_columnsMatch_eq_false hvalid hcolumns] at h
      cases h
      refine ⟨_, outcome_of_columnsMatch_eq_false (c := c.swap) hvalid hcolumns', rfl, ?_⟩
      exact .of_eq (DiffLine.map_swap_positional _ _).symm
  | true =>
      rw [outcome_of_columnsMatch hvalid hcolumns] at h
      obtain ⟨r, hr⟩ := exists_matchRows_eq_ok_of_predicateFree c.config c.cellMatcher hfree hfree'
      obtain ⟨r', hr'⟩ :=
        exists_matchRows_eq_ok_of_predicateFree c.config c.swap.cellMatcher hfree' hfree
      have hconversion : c.swap.cellMatcher.conversion = c.cellMatcher.conversion :=
        (conversion_ofColumns _ _ _).trans (conversion_ofColumns _ _ _).symm
      have hmirrors := matchRows_mirrors hconversion
        (reverses_cellMatcher hcolumns hs ht hfree hfree') hfree hfree' hr hr'
      have hswapped := outcome_of_columnsMatch (c := c.swap) hvalid hcolumns'
      rw [show matchRows c.swap.config c.swap.cellMatcher c.swap.expected c.swap.actual = .ok r'
        from hr'] at hswapped
      rw [hr] at h
      cases h
      exact ⟨_, hswapped, hmirrors.matched, hmirrors.lines⟩

/-- Exchanging two tables without predicates exchanges the sides of the lines and changes nothing
else. -/
theorem outcome_swap (hs : c.expected.Built) (ht : c.actual.Built)
    (hfree : c.expected.PredicateFree) (hfree' : c.actual.PredicateFree) :
    ((∃ o, c.outcome = .ok o) ↔ ∃ o, c.swap.outcome = .ok o) ∧
      ∀ o o', c.outcome = .ok o → c.swap.outcome = .ok o' →
        o'.matched = o.matched ∧ o'.rows.Perm (o.rows.map DiffLine.swap) := by
  refine ⟨⟨?_, ?_⟩, ?_⟩
  · rintro ⟨o, ho⟩
    obtain ⟨o', ho', _⟩ := exists_outcome_swap hs ht hfree hfree' ho
    exact ⟨o', ho'⟩
  · rintro ⟨o, ho⟩
    obtain ⟨o', ho', _⟩ := exists_outcome_swap (c := c.swap) ht hs hfree' hfree ho
    exact ⟨o', ho'⟩
  · intro o o' ho ho'
    obtain ⟨o'', ho'', hmirrors⟩ := exists_outcome_swap hs ht hfree hfree' ho
    cases ho''.symm.trans ho'
    exact hmirrors

end Comparison

namespace Table

def oneOneTwo : Table where
  columns := [⟨none, .integer, false⟩]
  rows := [⟨[.literal (.integer 1)]⟩, ⟨[.literal (.integer 1)]⟩, ⟨[.literal (.integer 2)]⟩]
  conversion := .strict

theorem built_oneOneTwo : oneOneTwo.Built := built_of_reread rfl

theorem predicateFree_oneOneTwo : oneOneTwo.PredicateFree := by
  simp [PredicateFree, oneOneTwo, Row.hasPredicate, Value.isPredicate]

end Table

namespace Comparison

theorem outcome_oneOneTwo :
    (inAnyOrder {} .oneOneTwo .oneTwoThree).outcome =
      .ok ⟨false, [.both 0 0, .expectedOnly 1, .both 2 1, .actualOnly 2], [.both 0 0]⟩ := by
  cbv

theorem outcome_swap_oneOneTwo :
    ∃ o, (inAnyOrder {} .oneTwoThree .oneOneTwo).outcome = .ok o ∧ o.matched = false ∧
      o.rows.Perm [.both 0 0, .actualOnly 1, .both 1 2, .expectedOnly 2] := by
  obtain ⟨hiff, hmirrors⟩ := outcome_swap (c := inAnyOrder {} .oneOneTwo .oneTwoThree)
    Table.built_oneOneTwo Table.built_oneTwoThree Table.predicateFree_oneOneTwo
    Table.predicateFree_oneTwoThree
  obtain ⟨o, ho⟩ := hiff.mp ⟨_, outcome_oneOneTwo⟩
  exact ⟨o, ho, hmirrors _ o outcome_oneOneTwo ho⟩

end Comparison

end TableDiff
