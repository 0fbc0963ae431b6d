import TableDiff.Proofs.AnyOrder.Matching

/-!
# The verdict on rows in any order

Rows in any order match exactly when they can be paired completely.  The lines of a positive verdict
are such a pairing.  That a pairing is found whenever there is one needs a concrete actual table,
and predicates that do not tell equivalent literals apart.
-/

namespace TableDiff

namespace RowMatch

variable {m : CellMatcher} {limit : Nat} {expected actual : List Entry} {r : RowMatch}

theorem anyOrder_eq_ok (h : anyOrder m limit expected actual = .ok r) :
    ∃ l, matchAnyOrder m limit expected actual = .ok l ∧
      r.lines = l.aligned (expected.map (·.index)) (actual.map (·.index)) ∧
      r.matched = r.lines.all DiffLine.isComplete := by
  rcases bind_eq_ok_iff.mp h with ⟨l, hl, hpure⟩
  cases hpure
  exact ⟨l, hl, rfl, rfl⟩

theorem anyOrder_sound {s t : Table}
    (h : anyOrder m limit expected actual = .ok r)
    (hexpected : ∀ e ∈ expected, e.IsOf s) (hactual : ∀ a ∈ actual, a.IsOf t)
    (hnodup : (expected.map (·.index)).Nodup) (hnodup' : (actual.map (·.index)).Nodup) :
    r.Sound (m.MatchesAt s t) (expected.map (·.index)) (actual.map (·.index)) := by
  rcases anyOrder_eq_ok h with ⟨l, hl, hlines, hverdict⟩
  rcases matchAnyOrder_sound hl with ⟨hdistinct, pairs, hpairs, hlist⟩
  constructor
  · rw [hlines]
    exact Pairing.covers_aligned hdistinct hnodup hnodup'
      (expected_mem_of_matchAnyOrder hl) (actual_mem_of_matchAnyOrder hl)
  · intro hmatched line hline
    rw [hverdict, List.all_eq_true] at hmatched
    rcases DiffLine.exists_eq_both_of_isComplete (hmatched line hline) with ⟨i, j, rfl⟩
    rw [hlines] at hline
    have hpair := Pairing.mem_of_both_mem_aligned hdistinct hline
    rw [hlist] at hpair
    rcases List.mem_map.mp hpair with ⟨q, hq, hqpair⟩
    cases hqpair
    have he := hexpected _ (hpairs.mem_left hq)
    have ha := hactual _ (hpairs.mem_right hq)
    exact ⟨_, _, rfl, matchesAt_of_joins he ha (hpairs.related q hq)⟩

theorem anyOrder_ofTable_sound {s t : Table}
    (h : anyOrder m limit (Entry.ofTable s) (Entry.ofTable t) = .ok r) :
    r.Sound (m.MatchesAt s t) (List.range s.rows.length) (List.range t.rows.length) := by
  have hexpected : ∀ e ∈ Entry.ofTable s, e.IsOf s := by
    intro e he
    exact Entry.isOf_of_mem_ofTable he
  have hactual : ∀ a ∈ Entry.ofTable t, a.IsOf t := by
    intro a ha
    exact Entry.isOf_of_mem_ofTable ha
  have hsound := anyOrder_sound h hexpected hactual
    (Entry.nodup_map_index_ofTable s) (Entry.nodup_map_index_ofTable t)
  rw [Entry.map_index_ofTable, Entry.map_index_ofTable] at hsound
  exact hsound

theorem anyOrder_of_matchable
    (h : anyOrder m limit expected actual = .ok r)
    (hmatchable : Matchable m.Joins expected actual)
    (hexchange : ∀ e ∈ expected, e.row.hasPredicate = false → ∀ x ∈ expected,
      ∀ a ∈ actual, ∀ a' ∈ actual, m.Joins e a → m.Joins e a' → m.Joins x a → m.Joins x a') :
    r.matched = true := by
  rcases anyOrder_eq_ok h with ⟨l, hl, hlines, hverdict⟩
  have hdistinct := (matchAnyOrder_sound hl).1
  rcases matchAnyOrder_of_matchable hl hmatchable hexchange with ⟨pairs, hpairs, hlist⟩
  rw [hverdict, hlines]
  apply Pairing.all_isComplete_aligned hdistinct
  · intro i hi
    rcases List.mem_map.mp hi with ⟨e, he, rfl⟩
    have hused := hpairs.left.symm.subset he
    rcases List.mem_map.mp hused with ⟨p, hp, rfl⟩
    exact ⟨p.1.pair p.2, hlist ▸ List.mem_map_of_mem hp, rfl⟩
  · intro j hj
    rcases List.mem_map.mp hj with ⟨a, ha, rfl⟩
    have hused := hpairs.right.symm.subset ha
    rcases List.mem_map.mp hused with ⟨p, hp, rfl⟩
    exact ⟨p.1.pair p.2, hlist ▸ List.mem_map_of_mem hp, rfl⟩

theorem anyOrder_eq_error {fault : MatchError} (h : anyOrder m limit expected actual = .error fault)
    (hnodup : (expected.map (·.index)).Nodup) (hnodup' : (actual.map (·.index)).Nodup) :
    (∃ e ∈ expected, ∃ a ∈ actual, m.rowsMatch e.row a.row = .error fault) ∨
      (fault = .tooManyPermutations limit ∧ ∃ e ∈ expected, e.row.hasPredicate = true) := by
  rcases bind_eq_error_iff.mp h with hmatch | ⟨l, _, hpure⟩
  · exact matchAnyOrder_eq_error hmatch hnodup hnodup'
  · cases hpure

variable (limit) in
/-- Where the answers on all rows exist, only the limit can stop the matching. -/
theorem exists_anyOrder_eq_ok
    (h : ∀ e ∈ expected, ∀ a ∈ actual, ∃ b, m.rowsMatch e.row a.row = .ok b)
    (hnodup : (expected.map (·.index)).Nodup) (hnodup' : (actual.map (·.index)).Nodup) :
    (∃ r, anyOrder m limit expected actual = .ok r) ∨
      anyOrder m limit expected actual = .error (.tooManyPermutations limit) := by
  cases hr : anyOrder m limit expected actual with
  | ok r => exact .inl ⟨r, rfl⟩
  | error fault =>
      rcases anyOrder_eq_error hr hnodup hnodup' with ⟨e, he, a, ha, hfault⟩ | ⟨rfl, _⟩
      · obtain ⟨b, hb⟩ := h e he a ha
        cases hb.symm.trans hfault
      · exact .inr rfl

end RowMatch

section

variable {m : CellMatcher} {s : Table} {actual : List Entry}

theorem joins_exchange_of_mem (hs : s.Built) {e x a a' : Entry} (he : e ∈ Entry.ofTable s)
    (hx : x ∈ Entry.ofTable s) (hliteral : e.row.hasPredicate = false)
    (hagree : ∀ p, Value.predicate p ∈ x.row.cells → p.AgreesOn m.conversion a.row a'.row)
    (ha : m.Joins e a) (ha' : m.Joins e a') (hxa : m.Joins x a) : m.Joins x a' := by
  have hlength : x.row.cells.length = e.row.cells.length := by
    rw [hs.length_cells (Entry.row_mem_of_mem_ofTable hx),
      hs.length_cells (Entry.row_mem_of_mem_ofTable he)]
  exact CellMatcher.rowsMatch_exchange hliteral hlength hagree ha ha' hxa

/-- Actual rows that one row without predicates matches are matched by the same rows of its
table. -/
theorem joins_exchange_of_agreesOn (hs : s.Built)
    (hagree : ∀ row ∈ s.rows, ∀ p, Value.predicate p ∈ row.cells →
      ∀ a ∈ actual, ∀ a' ∈ actual, p.AgreesOn m.conversion a.row a'.row) :
    ∀ e ∈ Entry.ofTable s, e.row.hasPredicate = false → ∀ x ∈ Entry.ofTable s,
      ∀ a ∈ actual, ∀ a' ∈ actual, m.Joins e a → m.Joins e a' → m.Joins x a → m.Joins x a' := by
  intro e he hliteral x hx a hmem a' hmem' ha ha' hxa
  have hxrow := Entry.row_mem_of_mem_ofTable hx
  have hagree' : ∀ p, Value.predicate p ∈ x.row.cells →
      p.AgreesOn m.conversion a.row a'.row := by
    intro p hp
    exact hagree x.row hxrow p hp a hmem a' hmem'
  exact joins_exchange_of_mem hs he hx hliteral hagree' ha ha' hxa

theorem joins_exchange (hs : s.Built) (hrespect : s.PredicatesRespect m.conversion) :
    ∀ e ∈ Entry.ofTable s, e.row.hasPredicate = false → ∀ x ∈ Entry.ofTable s,
      ∀ a ∈ actual, ∀ a' ∈ actual, m.Joins e a → m.Joins e a' → m.Joins x a → m.Joins x a' := by
  apply joins_exchange_of_agreesOn hs
  intro row hrow p hp a _ a' _
  exact (hrespect row hrow p hp).agreesOn a.row a'.row

end

theorem conversion_ofColumns (config : Config) (expected actual : List Column) :
    (CellMatcher.ofColumns config expected actual).conversion = config.conversion := by
  unfold CellMatcher.ofColumns
  cases config.columnMode with
  | positional => rfl
  | byName => rfl

/-- Unless the limit stops it, the search for rows in any order decides whether all rows can be
paired. -/
theorem anyOrder_matched_iff
    (config columns : Config) (s t : Table) (hmode : config.rowMode = .anyOrder)
    (hs : s.Built) (ht : t.PredicateFree) (hrespect : s.PredicatesRespect columns.conversion)
    (hfinished : ∀ limit, matchRows config (.ofColumns columns s.columns t.columns) s t ≠
      .error (.tooManyPermutations limit)) :
    ∃ r, matchRows config (.ofColumns columns s.columns t.columns) s t = .ok r ∧
      (r.matched = true ↔
        ∃ pairs, PerfectMatching
          ((CellMatcher.ofColumns columns s.columns t.columns).MatchesAt s t)
          (List.range s.rows.length) (List.range t.rows.length) pairs) := by
  rw [← conversion_ofColumns columns s.columns t.columns] at hrespect
  generalize CellMatcher.ofColumns columns s.columns t.columns = m at *
  have hrows : matchRows config m s t = RowMatch.anyOrder m config.permutationLimit
      (Entry.ofTable s) (Entry.ofTable t) := by
    rw [matchRows, hmode]
  have hexpected := Entry.nodup_map_index_ofTable s
  have hactual := Entry.nodup_map_index_ofTable t
  have hanswers : ∀ e ∈ Entry.ofTable s, ∀ a ∈ Entry.ofTable t,
      ∃ b, m.rowsMatch e.row a.row = .ok b := by
    intro e _ a ha
    exact exists_rowsMatch_of_mem_ofTable m ht e.row ha
  rw [hrows] at hfinished ⊢
  rcases RowMatch.exists_anyOrder_eq_ok config.permutationLimit
    hanswers hexpected hactual with ⟨r, hr⟩ | herror
  · refine ⟨r, hr, ?_⟩
    constructor
    · intro hmatched
      have hsound := RowMatch.anyOrder_ofTable_sound hr
      rcases hsound.perfectMatching hmatched with ⟨pairs, _, hpairs⟩
      exact ⟨pairs, hpairs⟩
    · intro hmatchable
      exact RowMatch.anyOrder_of_matchable hr (matchable_ofTable_iff.mpr hmatchable)
        (joins_exchange hs hrespect)
  · exact absurd herror (hfinished _)

namespace Table

/-- A row in which any value will do, and one that asks for `true`. -/
def anyThenTrue : Table where
  columns := [⟨none, .boolean, false⟩]
  rows := [⟨[.predicate ⟨"any", Option.isSome⟩]⟩, ⟨[.literal (.boolean true)]⟩]
  conversion := .strict

def trueThenFalse : Table where
  columns := [⟨none, .boolean, false⟩]
  rows := [⟨[.literal (.boolean true)]⟩, ⟨[.literal (.boolean false)]⟩]
  conversion := .strict

theorem built_anyThenTrue : anyThenTrue.Built := built_of_reread rfl

theorem built_trueThenFalse : trueThenFalse.Built := built_of_reread rfl

theorem predicateFree_trueThenFalse : trueThenFalse.PredicateFree := by
  simp [PredicateFree, trueThenFalse, Row.hasPredicate, Value.isPredicate]

theorem predicatesRespect_anyThenTrue (mode : ConversionMode) :
    anyThenTrue.PredicatesRespect mode := by
  intro row hrow p hp a b _
  have hany : p = ⟨"any", Option.isSome⟩ := by
    simp only [anyThenTrue, List.mem_cons, List.not_mem_nil, or_false] at hrow
    rcases hrow with rfl | rfl
    · simpa using hp
    · simp at hp
  rw [hany]
  rfl

end Table

theorem anyOrder_matched_iff_anyThenTrue :
    ∃ r, matchRows { rowMode := .anyOrder }
        (.ofColumns {} Table.anyThenTrue.columns Table.trueThenFalse.columns)
        Table.anyThenTrue Table.trueThenFalse = .ok r ∧
      (r.matched = true ↔
        ∃ pairs, PerfectMatching
          ((CellMatcher.ofColumns {} Table.anyThenTrue.columns
            Table.trueThenFalse.columns).MatchesAt Table.anyThenTrue Table.trueThenFalse)
          (List.range 2) (List.range 2) pairs) := by
  apply anyOrder_matched_iff _ _ _ _ rfl Table.built_anyThenTrue
    Table.predicateFree_trueThenFalse (Table.predicatesRespect_anyThenTrue _)
  intro limit
  have hrows : matchRows { rowMode := .anyOrder }
      (.ofColumns {} Table.anyThenTrue.columns Table.trueThenFalse.columns)
      Table.anyThenTrue Table.trueThenFalse = .ok ⟨true, [.both 0 1, .both 1 0]⟩ := by
    cbv
  rw [hrows]
  simp

end TableDiff
