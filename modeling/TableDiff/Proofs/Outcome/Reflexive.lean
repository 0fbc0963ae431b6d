import TableDiff.Proofs.Columns.Faults
import TableDiff.Proofs.Outcome.RowModes
import TableDiff.Proofs.Reflexive

/-!
# Tables compared with themselves

A table without predicates equals itself, and every row stands beside itself.  By name this needs
names that can be told apart: a table that cannot be compared by name cannot be compared with
itself either, and the fault is found on the expected side.
-/

namespace TableDiff

section

variable {config : Config} {columns : List Column}

theorem straight_ofColumns_self
    (h : config.columnMode = .byName → DistinctNames config.nameCase columns) :
    (CellMatcher.ofColumns config columns columns).Straight := by
  intro i j hj
  cases hmode : config.columnMode with
  | positional =>
      rw [CellMatcher.ofColumns, hmode] at hj
      exact (Option.some.inj hj).symm
  | byName =>
      rw [CellMatcher.ofColumns, hmode] at hj
      dsimp only at hj
      have hi := lt_length_of_actualIndex?_byName hj
      have hself : (CellMatcher.byName config.nameCase config.conversion columns
          columns).actualIndex? i = some i :=
        actualIndex?_byName_eq (h hmode).sameNames hi hi rfl
      exact Option.some.inj (hj.symm.trans hself)

theorem keyColumnsMatch_self
    (h : config.columnMode = .byName → DistinctNames config.nameCase columns) :
    columnsMatch config columns columns = .ok true ∧
      keyColumnsMatch config columns columns = .ok true := by
  cases hmode : config.columnMode with
  | positional =>
      have htypes : List.Forall₂ (fun c d => c.type.compatible d.type config.conversion = true)
          columns columns := by
        rw [List.forall₂_same]
        intro c _
        simp [DataType.compatible]
      refine ⟨?_, keyColumnsMatch_of_map_isKey hmode htypes rfl⟩
      rw [columnsMatch, hmode]
      exact congrArg Except.ok (columnsMatchByPosition_eq_true_iff.mpr htypes)
  | byName =>
      have hcolumns : columnsMatch config columns columns = .ok true := by
        rw [columnsMatch, hmode]
        exact columnsMatchByName_eq_ok_true_iff.mpr
          ⟨(h hmode).sameNames, (h hmode).compatibleByName⟩
      exact ⟨hcolumns, keyColumnsMatch_of_sameKeys hmode hcolumns (h hmode).sameKeys⟩

end

namespace Comparison

variable {c : Comparison} {config : Config} {t : Table}

/-- Faults in the names of the expected columns are found first, also if rows go by key. -/
theorem columnsMatch_eq_error {e : MatchError} (hmode : c.config.columnMode = .byName)
    (h : columnsByName c.config .expected c.expected.columns = .error e) :
    c.columnsMatch = .error e := by
  rw [columnsMatch_eq_error_iff, checkNames, hmode]
  dsimp only
  rw [h, error_bind]

theorem columnsMatch_self
    (h : config.columnMode = .byName → DistinctNames config.nameCase t.columns) :
    (Comparison.mk config t t).columnsMatch = .ok true := by
  obtain ⟨hcolumns, hkeys⟩ := keyColumnsMatch_self h
  by_cases hrows : config.rowMode = .byKey
  · rw [columnsMatch_of_byKey (c := ⟨config, t, t⟩) hrows, hkeys]
  · rw [columnsMatch_of_ne_byKey (c := ⟨config, t, t⟩) hrows, hcolumns]

/-- A table without predicates equals itself row by row, unless columns go by name and its names do
not tell them apart. -/
theorem outcome_self (config : Config) {t : Table} (hlimit : 1 ≤ config.permutationLimit)
    (ht : t.PredicateFree) :
    ((config.columnMode = .byName → DistinctNames config.nameCase t.columns) →
      ∃ o, (Comparison.mk config t t).outcome = .ok o ∧ o.matched = true ∧
        o.rows.Perm ((List.range t.rows.length).map fun i => DiffLine.both i i) ∧
        (config.rowMode ≠ .byKey →
          o.rows = (List.range t.rows.length).map fun i => DiffLine.both i i)) ∧
      (config.columnMode = .byName → (∃ c ∈ t.columns, c.name? = none) →
        (Comparison.mk config t t).outcome = .error (.unnamedColumns .expected)) ∧
      (config.columnMode = .byName → (∀ c ∈ t.columns, c.name?.isSome = true) →
        ¬(t.columns.map (·.normalizedName config.nameCase)).Nodup →
        ∃ names, (Comparison.mk config t t).outcome =
          .error (.duplicateColumnNames .expected names)) := by
  have hvalid : (Comparison.mk config t t).config.validate = .ok () :=
    if_neg (Nat.ne_of_gt hlimit)
  refine ⟨?_, ?_, ?_⟩
  · intro hnames
    obtain ⟨r, hr, hmatched, hlines, hordered⟩ :=
      matchRows_self config (straight_ofColumns_self hnames) ht
    rw [outcome_of_columnsMatch hvalid (columnsMatch_self hnames)]
    exact ⟨_, congrArg (Except.map _) hr, hmatched, hlines, hordered⟩
  · intro hmode hunnamed
    apply outcome_of_columnsMatch_eq_error hvalid
    apply columnsMatch_eq_error hmode
    exact columnsByName_of_unnamed config .expected hunnamed
  · intro hmode hnamed hrepeated
    obtain ⟨names, herror⟩ := columnsByName_of_not_nodup config .expected hnamed hrepeated
    refine ⟨names, ?_⟩
    apply outcome_of_columnsMatch_eq_error hvalid
    exact columnsMatch_eq_error hmode herror

end Comparison

namespace Table

/-- Two equal rows, and a third with the same key. -/
def equalRows : Table where
  columns := [⟨some "id", .integer, true⟩, ⟨some "flag", .boolean, false⟩]
  rows := [⟨[.literal (.integer 1), .literal (.boolean true)]⟩,
    ⟨[.literal (.integer 1), .literal (.boolean true)]⟩, ⟨[.literal (.integer 1), .null]⟩]
  conversion := .strict

def idTwice : Table where
  columns := [⟨some "id", .integer, true⟩, ⟨some "id", .boolean, false⟩]
  rows := []
  conversion := .strict

theorem predicateFree_equalRows : equalRows.PredicateFree := by
  simp [PredicateFree, equalRows, Row.hasPredicate, Value.isPredicate]

theorem predicateFree_idTwice : idTwice.PredicateFree := by
  intro _ hrow
  cases hrow

theorem distinctNames_equalRows : DistinctNames .sensitive equalRows.columns :=
  ⟨by decide, by decide⟩

end Table

namespace Comparison

theorem outcome_self_equalRows :
    (∃ o, (Comparison.mk { columnMode := .byName, rowMode := .anyOrder } .equalRows
          .equalRows).outcome = .ok o ∧ o.matched = true ∧
        o.rows.Perm ((List.range 3).map fun i => DiffLine.both i i) ∧
        o.rows = (List.range 3).map fun i => DiffLine.both i i) ∧
      (Comparison.mk { columnMode := .byName } .keyedTrueFalse .keyedTrueFalse).outcome =
        .error (.unnamedColumns .expected) ∧
      ∃ names, (Comparison.mk { columnMode := .byName } .idTwice .idTwice).outcome =
        .error (.duplicateColumnNames .expected names) := by
  obtain ⟨hequal, _⟩ := outcome_self { columnMode := .byName, rowMode := .anyOrder } (by decide)
    Table.predicateFree_equalRows
  obtain ⟨_, hunnamed, _⟩ := outcome_self { columnMode := .byName } (by decide)
    Table.predicateFree_keyedTrueFalse
  obtain ⟨_, _, hrepeated⟩ := outcome_self { columnMode := .byName } (by decide)
    Table.predicateFree_idTwice
  refine ⟨?_, hunnamed rfl (by decide), hrepeated rfl (by decide) (by decide)⟩
  obtain ⟨o, ho, hmatched, hlines, hordered⟩ := hequal fun _ => Table.distinctNames_equalRows
  exact ⟨o, ho, hmatched, hlines, hordered (by decide)⟩

end Comparison

end TableDiff
