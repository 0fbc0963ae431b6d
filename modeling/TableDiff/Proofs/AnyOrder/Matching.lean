import TableDiff.Proofs.AnyOrder.Compatibility
import TableDiff.Proofs.RowMatch

/-!
# Matching rows in any order

What is paired always matches and is never paired twice.  If the actual rows that a row without
predicates matches are interchangeable, the two phases together find a complete pairing whenever one
exists, so the verdict is that of a perfect matching.
-/

namespace TableDiff

namespace Entry

/-- The entry is a row of the table under its index. -/
def IsOf (t : Table) (e : Entry) : Prop := t.rows[e.index]? = some e.row

theorem getElem?_ofTable (t : Table) (i : Nat) :
    (ofTable t)[i]? = t.rows[i]?.map fun row => ⟨i, i, row⟩ := by
  simp only [ofTable, List.getElem?_map, List.getElem?_zipIdx, Option.map_map]
  simp [Function.comp_def]

theorem isOf_of_mem_ofTable {t : Table} {e : Entry} (h : e ∈ ofTable t) : e.IsOf t := by
  rcases List.mem_iff_getElem?.mp h with ⟨i, hi⟩
  rw [getElem?_ofTable] at hi
  rcases Option.map_eq_some_iff.mp hi with ⟨row, hrow, rfl⟩
  exact hrow

theorem mem_ofTable {t : Table} {i : Nat} {row : Row} (h : t.rows[i]? = some row) :
    ⟨i, i, row⟩ ∈ ofTable t := by
  apply List.mem_of_getElem? (i := i)
  rw [getElem?_ofTable, h, Option.map_some]

theorem row_mem {t : Table} {e : Entry} (h : e.IsOf t) : e.row ∈ t.rows :=
  List.mem_of_getElem? h

theorem row_mem_of_mem_ofTable {t : Table} {e : Entry} (h : e ∈ ofTable t) : e.row ∈ t.rows :=
  row_mem (isOf_of_mem_ofTable h)

theorem map_index_ofTable (t : Table) :
    (ofTable t).map (·.index) = List.range t.rows.length := by
  have hindex : (ofTable t).map (·.index) = t.rows.zipIdx.map (·.2) := by
    rw [ofTable, List.map_map]
    rfl
  rw [hindex, List.zipIdx_map_snd, List.range_eq_range']

theorem map_row_ofTable (t : Table) : (ofTable t).map (·.row) = t.rows := by
  have hrow : (ofTable t).map (·.row) = t.rows.zipIdx.map (·.1) := by
    rw [ofTable, List.map_map]
    rfl
  rw [hrow, List.zipIdx_map_fst]

theorem exists_mem_ofTable {t : Table} {row : Row} (h : row ∈ t.rows) :
    ∃ e ∈ ofTable t, e.row = row := by
  rw [← map_row_ofTable] at h
  exact List.mem_map.mp h

theorem nodup_map_index_ofTable (t : Table) : ((ofTable t).map (·.index)).Nodup := by
  rw [map_index_ofTable]
  exact List.nodup_range

theorem length_ofTable (t : Table) : (ofTable t).length = t.rows.length := by
  simp [ofTable]

end Entry

section

variable {m : CellMatcher} {limit : Nat} {expected actual : List Entry} {l : Pairing}

theorem matchesAt_of_joins
    {s t : Table} {e a : Entry} (he : e.IsOf s) (ha : a.IsOf t) (h : m.Joins e a) :
    m.MatchesAt s t e.index a.index :=
  ⟨e.row, a.row, he, ha, h⟩

theorem joins_of_matchesAt
    {s t : Table} {e a : Entry} (he : e.IsOf s) (ha : a.IsOf t)
    (h : m.MatchesAt s t e.index a.index) : m.Joins e a := by
  obtain ⟨x, y, hx, hy, hxy⟩ := h
  cases he.symm.trans hx
  cases ha.symm.trans hy
  exact hxy

variable (m) in
theorem exists_rowsMatch_of_mem_ofTable {t : Table} (ht : t.PredicateFree) (e : Row) {a : Entry}
    (ha : a ∈ Entry.ofTable t) : ∃ b, m.rowsMatch e a.row = .ok b :=
  CellMatcher.exists_rowsMatch_eq_ok (ht a.row (Entry.row_mem_of_mem_ofTable ha))

theorem hasPredicate_of_subset_ofTable {t : Table} (ht : t.PredicateFree) {entries : List Entry}
    (hsub : entries ⊆ Entry.ofTable t) : ∀ e ∈ entries, e.row.hasPredicate = false := by
  intro e he
  exact ht e.row (Entry.row_mem_of_mem_ofTable (hsub he))

/-- Whether entries can be paired depends on their rows. -/
theorem matchable_joins_iff :
    Matchable m.Joins expected actual ↔
      Matchable (fun e a => m.rowsMatch e a = .ok true)
        (expected.map (·.row)) (actual.map (·.row)) := by
  rw [matchable_map_iff]
  rfl

theorem matchable_ofTable_iff {s t : Table} :
    Matchable m.Joins (Entry.ofTable s) (Entry.ofTable t) ↔
      Matchable (m.MatchesAt s t) (List.range s.rows.length) (List.range t.rows.length) := by
  have hat : RelatedAt m.Joins (Entry.ofTable s) (Entry.ofTable t) = m.MatchesAt s t := by
    funext i j
    simp [RelatedAt, CellMatcher.MatchesAt, CellMatcher.Joins, Entry.getElem?_ofTable]
  rw [← matchable_places_iff, hat, Entry.length_ofTable, Entry.length_ofTable]

theorem matchAnyOrder_eq (m : CellMatcher) (limit : Nat) (expected actual : List Entry) :
    matchAnyOrder m limit expected actual = (do
      let (literalPairs, left) ←
        pairLiteralRows m (expected.filter fun e => !e.row.hasPredicate) actual
      let predicatePairs ←
        pairPredicateRows m limit (expected.filter fun e => e.row.hasPredicate) left
      Pairing.ofList ((literalPairs ++ predicatePairs.getD []).map fun p => p.1.pair p.2)) := by
  rw [matchAnyOrder, List.partition_eq_filter_filter]
  rfl

/-- Without predicates on the expected side there is only the first phase. -/
theorem matchAnyOrder_of_literal (m : CellMatcher) (limit : Nat) (actual : List Entry)
    (hliteral : ∀ e ∈ expected, e.row.hasPredicate = false) :
    matchAnyOrder m limit expected actual = (do
      let (pairs, _) ← pairLiteralRows m expected actual
      Pairing.ofList (pairs.map fun p => p.1.pair p.2)) := by
  have hall : expected.filter (fun e => !e.row.hasPredicate) = expected := by
    rw [List.filter_eq_self]
    intro e he
    rw [hliteral e he]
    rfl
  have hnone : expected.filter (fun e => e.row.hasPredicate) = [] := by
    rw [List.filter_eq_nil_iff]
    intro e he
    simp [hliteral e he]
  rw [matchAnyOrder_eq, hall, hnone]
  simp [pairPredicateRows_nil]

theorem filter_hasPredicate_perm (expected : List Entry) :
    ((expected.filter fun e => !e.row.hasPredicate) ++
      expected.filter fun e => e.row.hasPredicate).Perm expected :=
  List.perm_append_comm.trans (List.filter_append_perm _ _)

theorem matchAnyOrder_eq_ok (h : matchAnyOrder m limit expected actual = .ok l) :
    ∃ literalPairs left found,
      pairLiteralRows m (expected.filter fun e => !e.row.hasPredicate) actual =
        .ok (literalPairs, left) ∧
      pairPredicateRows m limit (expected.filter fun e => e.row.hasPredicate) left =
        .ok found ∧
      l.toList = (literalPairs ++ found.getD []).map (fun p => p.1.pair p.2) ∧
      Pairing.Distinct l.toList := by
  rw [matchAnyOrder_eq] at h
  rcases bind_eq_ok_iff.mp h with ⟨⟨literalPairs, left⟩, hliteral, hrest⟩
  rcases bind_eq_ok_iff.mp hrest with ⟨found, hfound, hlist⟩
  rcases Pairing.ofList_eq_ok_iff.mp hlist with ⟨htoList, hdistinct⟩
  exact ⟨literalPairs, left, found, hliteral, hfound, htoList, htoList ▸ hdistinct⟩

/-- A pairing joins given rows that match, and no row twice. -/
theorem matchAnyOrder_sound (h : matchAnyOrder m limit expected actual = .ok l) :
    Pairing.Distinct l.toList ∧ ∃ pairs, PartialMatching m.Joins expected actual pairs ∧
      l.toList = pairs.map fun p => p.1.pair p.2 := by
  rcases matchAnyOrder_eq_ok h with
    ⟨literalPairs, left, found, hliteral, hfound, hlist, hdistinct⟩
  have hsound := pairLiteralRows_sound hliteral
  have hall := (hsound.1.append (pairPredicateRows_eq_ok hfound).1).perm
    (filter_hasPredicate_perm expected) hsound.2
  exact ⟨hdistinct, _, hall, hlist⟩

theorem expected_mem_of_matchAnyOrder (h : matchAnyOrder m limit expected actual = .ok l) :
    ∀ p ∈ l.toList, p.expected ∈ expected.map (·.index) := by
  obtain ⟨_, pairs, hpairs, hlist⟩ := matchAnyOrder_sound h
  rw [hlist]
  intro p hp
  obtain ⟨q, hq, rfl⟩ := List.mem_map.mp hp
  exact List.mem_map_of_mem (hpairs.mem_left hq)

theorem actual_mem_of_matchAnyOrder (h : matchAnyOrder m limit expected actual = .ok l) :
    ∀ p ∈ l.toList, p.actual ∈ actual.map (·.index) := by
  obtain ⟨_, pairs, hpairs, hlist⟩ := matchAnyOrder_sound h
  rw [hlist]
  intro p hp
  obtain ⟨q, hq, rfl⟩ := List.mem_map.mp hp
  exact List.mem_map_of_mem (hpairs.mem_right hq)

theorem distinct_map_pair {pairs : List (Entry × Entry)}
    (h : PartialMatching m.Joins expected actual pairs)
    (hexpected : (expected.map (·.index)).Nodup) (hactual : (actual.map (·.index)).Nodup) :
    Pairing.Distinct (pairs.map fun p => p.1.pair p.2) where
  expected := by
    have hsub := nodup_map_of_subperm h.left hexpected
    rw [List.map_map] at hsub ⊢
    exact hsub
  actual := by
    have hsub := nodup_map_of_subperm h.right hactual
    rw [List.map_map] at hsub ⊢
    exact hsub

/-- The pairs of the two phases can be put together. -/
theorem matchAnyOrder_of_phases {left : List Entry} {literalPairs : List (Entry × Entry)}
    {found : Option (List (Entry × Entry))}
    (hliteral : pairLiteralRows m (expected.filter fun e => !e.row.hasPredicate) actual =
      .ok (literalPairs, left))
    (hpredicate : pairPredicateRows m limit (expected.filter fun e => e.row.hasPredicate) left =
      .ok found)
    (hexpected : (expected.map (·.index)).Nodup) (hactual : (actual.map (·.index)).Nodup) :
    ∃ l, matchAnyOrder m limit expected actual = .ok l ∧
      l.toList = (literalPairs ++ found.getD []).map fun p => p.1.pair p.2 := by
  have hsound := pairLiteralRows_sound hliteral
  have hall := (hsound.1.append (pairPredicateRows_eq_ok hpredicate).1).perm
    (filter_hasPredicate_perm expected) hsound.2
  obtain ⟨l, hl⟩ := Pairing.ofList_eq_ok (distinct_map_pair hall hexpected hactual)
  refine ⟨l, ?_, (Pairing.ofList_eq_ok_iff.mp hl).1⟩
  rw [matchAnyOrder_eq, hliteral, ok_bind]
  dsimp only
  rw [hpredicate, ok_bind]
  exact hl

/-- The matching fails where two rows cannot be compared, or where the search for partners of the
rows with predicates meets its limit; no row is paired twice. -/
theorem matchAnyOrder_eq_error {fault : MatchError}
    (h : matchAnyOrder m limit expected actual = .error fault)
    (hexpected : (expected.map (·.index)).Nodup) (hactual : (actual.map (·.index)).Nodup) :
    (∃ e ∈ expected, ∃ a ∈ actual, m.rowsMatch e.row a.row = .error fault) ∨
      (fault = .tooManyPermutations limit ∧ ∃ e ∈ expected, e.row.hasPredicate = true) := by
  have hphases := h
  rw [matchAnyOrder_eq, bind_eq_error_iff] at hphases
  rcases hphases with hliteral | ⟨⟨literalPairs, left⟩, hliteral, hphases⟩
  · obtain ⟨e, he, a, ha, hfault⟩ := pairLiteralRows_eq_error hliteral
    exact .inl ⟨e, List.mem_of_mem_filter he, a, ha, hfault⟩
  · rcases bind_eq_error_iff.mp hphases with hpredicate | ⟨found, hfound, _⟩
    · obtain ⟨hne, hlimit | ⟨e, he, a, ha, hfault⟩⟩ := pairPredicateRows_eq_error hpredicate
      · obtain ⟨e, he⟩ := List.exists_mem_of_ne_nil _ hne
        exact .inr ⟨hlimit, e, List.mem_of_mem_filter he, (List.mem_filter.mp he).2⟩
      · exact .inl ⟨e, List.mem_of_mem_filter he, a,
          (pairLiteralRows_sound hliteral).2.mem_iff.mp (List.mem_append_right _ ha), hfault⟩
    · obtain ⟨l, hl, _⟩ := matchAnyOrder_of_phases hliteral hfound hexpected hactual
      cases hl.symm.trans h

/-- A pairing is complete if a complete one exists. -/
theorem matchAnyOrder_of_matchable
    (h : matchAnyOrder m limit expected actual = .ok l)
    (hmatchable : Matchable m.Joins expected actual)
    (hexchange : ∀ e ∈ expected, e.row.hasPredicate = false → ∀ x ∈ expected,
      ∀ a ∈ actual, ∀ a' ∈ actual, m.Joins e a → m.Joins e a' → m.Joins x a → m.Joins x a') :
    ∃ pairs, PerfectMatching m.Joins expected actual pairs ∧
      l.toList = pairs.map fun p => p.1.pair p.2 := by
  rcases matchAnyOrder_eq_ok h with ⟨literalPairs, left, found, hliteral, hfound, hlist, _⟩
  have hsplit := filter_hasPredicate_perm expected
  have hsound := pairLiteralRows_sound hliteral
  have hpaired := pairLiteralRows_of_matchable hliteral
    (hmatchable.perm hsplit.symm (.refl _)) fun e he x hx => by
      have he' := List.mem_filter.mp he
      exact hexchange e he'.1 (by simpa using he'.2) x (hsplit.mem_iff.mp hx)
  have hliteralMatching : PerfectMatching m.Joins
      (expected.filter fun e => !e.row.hasPredicate) (literalPairs.map Prod.snd)
      literalPairs :=
    ⟨hpaired.1, .refl _, hsound.1.related⟩
  have hpredicateMatching := (pairPredicateRows_eq_ok hfound).2 hpaired.2
  exact ⟨_, (hliteralMatching.append hpredicateMatching).perm hsplit hsound.2, hlist⟩

end

end TableDiff
