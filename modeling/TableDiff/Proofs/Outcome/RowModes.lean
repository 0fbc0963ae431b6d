import TableDiff.Proofs.KeyGroups.Verdict
import TableDiff.Proofs.Outcome

/-!
# Row modes that agree

Grouping rows by key and comparing all rows in any order give one verdict: both say whether all rows
can be paired.  They differ in cost alone, so the comparison has to stay within its limit both
times.
-/

namespace TableDiff

namespace RowMatch

variable {m : CellMatcher} {limit : Nat} {s t : Table} {r : RowMatch}

theorem anyOrder_ofTable_matched_iff
    (h : anyOrder m limit (Entry.ofTable s) (Entry.ofTable t) = .ok r)
    (hs : s.Built) (hrespect : s.PredicatesRespect m.conversion) :
    r.matched = true ↔ Matchable m.Joins (Entry.ofTable s) (Entry.ofTable t) := by
  constructor
  · intro hmatched
    obtain ⟨pairs, _, hpairs⟩ := (anyOrder_ofTable_sound h).perfectMatching hmatched
    exact matchable_ofTable_iff.mpr ⟨pairs, hpairs⟩
  · intro hmatchable
    exact anyOrder_of_matchable h hmatchable (joins_exchange hs hrespect)

variable (m limit s) in
theorem exists_anyOrder_ofTable_eq_ok (ht : t.PredicateFree) :
    (∃ r, anyOrder m limit (Entry.ofTable s) (Entry.ofTable t) = .ok r) ∨
      anyOrder m limit (Entry.ofTable s) (Entry.ofTable t) =
        .error (.tooManyPermutations limit) := by
  apply exists_anyOrder_eq_ok limit _ (Entry.nodup_map_index_ofTable s)
    (Entry.nodup_map_index_ofTable t)
  intro e _ a ha
  exact exists_rowsMatch_of_mem_ofTable m ht e.row ha

end RowMatch

section

variable {config : Config} {m : CellMatcher} {s t : Table} {r : RowMatch} {fault : MatchError}

theorem matchRows_eq_error (h : matchRows config m s t = .error fault) :
    (∃ e ∈ s.rows, ∃ a ∈ t.rows, m.rowsMatch e a = .error fault) ∨
      (config.rowMode = .byKey ∧ (RowMatch.keyedEntries config m s = .error fault ∨
        RowMatch.keyedEntries config m t = .error fault)) ∨
      (fault = .tooManyPermutations config.permutationLimit ∧ config.rowMode ≠ .ordered ∧
        ∃ row ∈ s.rows, row.hasPredicate = true) := by
  unfold matchRows at h
  cases hmode : config.rowMode with
  | ordered =>
      rw [hmode] at h
      exact .inl (RowMatch.ordered_eq_error h)
  | anyOrder =>
      rw [hmode] at h
      rcases RowMatch.anyOrder_eq_error h (Entry.nodup_map_index_ofTable s)
        (Entry.nodup_map_index_ofTable t) with ⟨e, he, a, ha, hfault⟩ | ⟨hlimit, e, he, hpredicate⟩
      · exact .inl ⟨e.row, Entry.row_mem_of_mem_ofTable he, a.row, Entry.row_mem_of_mem_ofTable ha,
          hfault⟩
      · exact .inr (.inr ⟨hlimit, by simp, e.row, Entry.row_mem_of_mem_ofTable he, hpredicate⟩)
  | byKey =>
      rw [hmode] at h
      rcases RowMatch.byKey_eq_error h with hfault | hfault | ⟨e, he, a, ha, hfault⟩ |
        ⟨hlimit, e, he, hpredicate⟩
      · exact .inr (.inl ⟨rfl, .inl hfault⟩)
      · exact .inr (.inl ⟨rfl, .inr hfault⟩)
      · exact .inl ⟨e.row, Entry.row_mem_of_mem_ofTable he, a.row, Entry.row_mem_of_mem_ofTable ha,
          hfault⟩
      · exact .inr (.inr ⟨hlimit, by simp, e.row, Entry.row_mem_of_mem_ofTable he, hpredicate⟩)

/-- The matching of rows fails for a cell that has no value or at the limit. -/
theorem table_or_limit_of_matchRows_eq_error (h : matchRows config m s t = .error fault) :
    (∃ e, fault = .table e) ∨ fault = .tooManyPermutations config.permutationLimit := by
  rcases matchRows_eq_error h with ⟨e, _, a, _, hfault⟩ | ⟨_, hfault | hfault⟩ | ⟨hlimit, _⟩
  · exact .inl (MatchError.exists_of_lift_eq_error hfault)
  · exact .inl (RowMatch.exists_of_keyedEntries_eq_error hfault)
  · exact .inl (RowMatch.exists_of_keyedEntries_eq_error hfault)
  · exact .inr hlimit

/-- If all cells have values where they need one, only the limit can stop the matching of rows, and
only in a search. -/
theorem limit_of_matchRows_eq_error (ht : t.PredicateFree)
    (hconcrete : config.rowMode = .byKey → ∀ row ∈ s.rows, s.ConcreteKey row)
    (h : matchRows config m s t = .error fault) :
    fault = .tooManyPermutations config.permutationLimit ∧ config.rowMode ≠ .ordered ∧
      ∃ row ∈ s.rows, row.hasPredicate = true := by
  rcases matchRows_eq_error h with ⟨e, _, a, ha, hfault⟩ | ⟨hmode, hfault | hfault⟩ | hlimit
  · obtain ⟨b, hb⟩ := CellMatcher.exists_rowsMatch_eq_ok (m := m) (e := e) (ht a ha)
    cases hb.symm.trans hfault
  · obtain ⟨keyed, hkeyed⟩ := RowMatch.exists_keyedEntries_eq_ok config m (hconcrete hmode)
    cases hkeyed.symm.trans hfault
  · obtain ⟨keyed, hkeyed⟩ := RowMatch.exists_keyedEntries_eq_ok config m ht.concreteKey
    cases hkeyed.symm.trans hfault
  · exact hlimit

variable (config m) in
theorem exists_matchRows_eq_ok (ht : t.PredicateFree)
    (hconcrete : config.rowMode = .byKey → ∀ row ∈ s.rows, s.ConcreteKey row) :
    (∃ r, matchRows config m s t = .ok r) ∨
      matchRows config m s t = .error (.tooManyPermutations config.permutationLimit) := by
  cases hr : matchRows config m s t with
  | ok r => exact .inl ⟨r, rfl⟩
  | error fault =>
      rw [(limit_of_matchRows_eq_error ht hconcrete hr).1]
      exact .inr rfl

variable (config m) in
/-- Tables without predicates are compared to the end. -/
theorem exists_matchRows_eq_ok_of_predicateFree (hs : s.PredicateFree) (ht : t.PredicateFree) :
    ∃ r, matchRows config m s t = .ok r := by
  apply exists_eq_ok_of_ne_error
  intro fault hfault
  obtain ⟨_, _, row, hrow, hpredicate⟩ :=
    limit_of_matchRows_eq_error ht (fun _ => hs.concreteKey) hfault
  rw [hs row hrow] at hpredicate
  cases hpredicate

theorem matchRows_matched_iff (hmode : config.rowMode = .anyOrder ∨ config.rowMode = .byKey)
    (h : matchRows config m s t = .ok r) (hs : s.Built)
    (haligned : config.rowMode = .byKey →
      RowMatch.KeysAligned m (RowMatch.keyOrder config s) (RowMatch.keyOrder config t))
    (hrespect : s.PredicatesRespect m.conversion) :
    r.matched = true ↔ Matchable m.Joins (Entry.ofTable s) (Entry.ofTable t) := by
  rcases hmode with hmode | hmode
  · rw [matchRows, hmode] at h
    exact RowMatch.anyOrder_ofTable_matched_iff h hs hrespect
  · rw [matchRows, hmode] at h
    exact RowMatch.byKey_matched_iff h hs (haligned hmode) hrespect

end

/-- Unless rows are compared in their order or the limit stops the comparison, its verdict says
whether all rows can be paired. -/
theorem Comparison.exists_isMatch_iff {c : Comparison} (hvalid : c.config.validate = .ok ())
    (hmode : c.config.rowMode = .anyOrder ∨ c.config.rowMode = .byKey)
    (hcolumns : c.columnsMatch = .ok true) (hs : c.expected.Built) (ht : c.actual.PredicateFree)
    (hconcrete : c.config.rowMode = .byKey →
      ∀ row ∈ c.expected.rows, c.expected.ConcreteKey row)
    (haligned : c.config.rowMode = .byKey →
      RowMatch.KeysAligned c.cellMatcher (RowMatch.keyOrder c.config c.expected)
        (RowMatch.keyOrder c.config c.actual))
    (hrespect : c.expected.PredicatesRespect c.config.conversion)
    (hfinished : ∀ limit, c.isMatch ≠ .error (.tooManyPermutations limit)) :
    ∃ b, c.isMatch = .ok b ∧
      (b = true ↔
        Matchable c.cellMatcher.Joins (Entry.ofTable c.expected) (Entry.ofTable c.actual)) := by
  rw [isMatch_of_columnsMatch hvalid hcolumns] at hfinished ⊢
  rw [← conversion_ofColumns c.config c.expected.columns c.actual.columns] at hrespect
  rcases exists_matchRows_eq_ok c.config c.cellMatcher ht hconcrete with ⟨r, hr⟩ | hlimit
  · exact ⟨r.matched, congrArg (Except.map _) hr,
      matchRows_matched_iff hmode hr hs haligned hrespect⟩
  · exact absurd (congrArg (Except.map _) hlimit) (hfinished _)

namespace Comparison

variable {config : Config} {s t : Table}

def inAnyOrder (config : Config) (s t : Table) : Comparison :=
  ⟨{ config with rowMode := .anyOrder }, s, t⟩

def groupedByKey (config : Config) (s t : Table) : Comparison :=
  ⟨{ config with rowMode := .byKey }, s, t⟩

theorem outcome_inAnyOrder (hvalid : config.validate = .ok ())
    (hcolumns : TableDiff.columnsMatch config s.columns t.columns = .ok true) :
    (inAnyOrder config s t).outcome =
      (RowMatch.anyOrder (.ofColumns config s.columns t.columns) config.permutationLimit
        (Entry.ofTable s) (Entry.ofTable t)).map fun r =>
          ⟨r.matched, r.lines, pairColumns config s.columns t.columns⟩ :=
  outcome_of_columnsMatch (c := inAnyOrder config s t) hvalid hcolumns

theorem outcome_groupedByKey (hvalid : config.validate = .ok ())
    (hkeys : keyColumnsMatch config s.columns t.columns = .ok true) :
    (groupedByKey config s t).outcome =
      (RowMatch.byKey config (.ofColumns config s.columns t.columns) s t).map fun r =>
        ⟨r.matched, r.lines, pairColumns config s.columns t.columns⟩ :=
  outcome_of_columnsMatch (c := groupedByKey config s t) hvalid hkeys

/-- Unless a limit stops one of the two, grouping by key does not change the verdict on rows in any
order. -/
theorem groupedByKey_matched_eq
    (hvalid : config.validate = .ok ()) (hs : s.Built) (ht : t.PredicateFree)
    (hkeys : keyColumnsMatch config s.columns t.columns = .ok true)
    (hindices : config.columnMode = .positional → s.keyIndices = t.keyIndices)
    (hconcrete : ∀ row ∈ s.rows, s.ConcreteKey row)
    (hrespect : s.PredicatesRespect config.conversion)
    (hgrouped : ∀ limit, (groupedByKey config s t).outcome ≠ .error (.tooManyPermutations limit))
    (hanyOrder : ∀ limit, (inAnyOrder config s t).outcome ≠ .error (.tooManyPermutations limit)) :
    ∃ o o', (groupedByKey config s t).outcome = .ok o ∧
      (inAnyOrder config s t).outcome = .ok o' ∧ o.matched = o'.matched := by
  rw [outcome_groupedByKey hvalid hkeys] at hgrouped ⊢
  rw [outcome_inAnyOrder hvalid (columnsMatch_of_keyColumnsMatch hkeys)] at hanyOrder ⊢
  have haligned := RowMatch.keysAligned_keyOrder hkeys hindices
  rw [← conversion_ofColumns config s.columns t.columns] at hrespect
  generalize CellMatcher.ofColumns config s.columns t.columns = m at *
  rcases RowMatch.exists_byKey_eq_ok config m hconcrete ht with ⟨r, hr⟩ | hlimit
  · rcases RowMatch.exists_anyOrder_ofTable_eq_ok m config.permutationLimit s ht with
      ⟨r', hr'⟩ | hlimit
    · refine ⟨_, _, by rw [hr]; rfl, by rw [hr']; rfl, ?_⟩
      rw [Bool.eq_iff_iff, RowMatch.byKey_matched_iff hr hs haligned hrespect,
        RowMatch.anyOrder_ofTable_matched_iff hr' hs hrespect]
    · exact absurd (by rw [hlimit]; rfl) (hanyOrder config.permutationLimit)
  · exact absurd (by rw [hlimit]; rfl) (hgrouped config.permutationLimit)

end Comparison

namespace Table

/-- Two rows with the first key, one of which takes any value, and one with the second. -/
def keyedAnyTrue : Table where
  columns := [⟨none, .integer, true⟩, ⟨none, .boolean, false⟩]
  rows := [⟨[.literal (.integer 1), .predicate ⟨"any", Option.isSome⟩]⟩,
    ⟨[.literal (.integer 1), .literal (.boolean true)]⟩,
    ⟨[.literal (.integer 2), .literal (.boolean false)]⟩]
  conversion := .strict

def keyedTrueFalse : Table where
  columns := [⟨none, .integer, true⟩, ⟨none, .boolean, false⟩]
  rows := [⟨[.literal (.integer 2), .literal (.boolean false)]⟩,
    ⟨[.literal (.integer 1), .literal (.boolean true)]⟩,
    ⟨[.literal (.integer 1), .literal (.boolean false)]⟩]
  conversion := .strict

theorem built_keyedAnyTrue : keyedAnyTrue.Built := built_of_reread rfl

theorem predicateFree_keyedTrueFalse : keyedTrueFalse.PredicateFree := by
  simp [PredicateFree, keyedTrueFalse, Row.hasPredicate, Value.isPredicate]

theorem concreteKey_keyedAnyTrue : ∀ row ∈ keyedAnyTrue.rows, keyedAnyTrue.ConcreteKey row := by
  simp [ConcreteKey, keyIndices, keyedAnyTrue, Value.isPredicate]

theorem predicatesRespect_keyedAnyTrue (mode : ConversionMode) :
    keyedAnyTrue.PredicatesRespect mode := by
  simp [PredicatesRespect, Predicate.Respects, keyedAnyTrue]

end Table

namespace Comparison

theorem groupedByKey_matched_eq_keyedAnyTrue :
    ∃ o o', (groupedByKey {} .keyedAnyTrue .keyedTrueFalse).outcome = .ok o ∧
      (inAnyOrder {} .keyedAnyTrue .keyedTrueFalse).outcome = .ok o' ∧
      o.matched = o'.matched := by
  have hgrouped : (groupedByKey {} .keyedAnyTrue .keyedTrueFalse).outcome =
      .ok ⟨true, [.both 0 2, .both 1 1, .both 2 0], [.both 0 0, .both 1 1]⟩ := by
    cbv
  have hanyOrder : (inAnyOrder {} .keyedAnyTrue .keyedTrueFalse).outcome =
      .ok ⟨true, [.both 0 2, .both 1 1, .both 2 0], [.both 0 0, .both 1 1]⟩ := by
    cbv
  apply groupedByKey_matched_eq rfl Table.built_keyedAnyTrue
    Table.predicateFree_keyedTrueFalse rfl (fun _ => rfl) Table.concreteKey_keyedAnyTrue
    (Table.predicatesRespect_keyedAnyTrue _)
  · simp [hgrouped]
  · simp [hanyOrder]

end Comparison

end TableDiff
