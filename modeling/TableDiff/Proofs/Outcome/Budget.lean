import TableDiff.Comparison
import TableDiff.Proofs.AnyOrder.Budget

/-!
# The outcome of a comparison under its limit

Only the searches of a comparison look at the limit.  With everything else unchanged a comparison is
therefore a threshold: it has an outcome, or an error, and a number of dead ends, and the limit only
decides whether this number is too large.
-/

namespace TableDiff

namespace Conclusive

theorem columnsByName (config : Config) (side : Side) (columns : List Column) :
    Conclusive (columnsByName config side columns) := by
  apply bind
  · apply mapM
    intro c
    cases c.name? with
    | none => exact .error rfl
    | some name => exact .ok _
  · intro named
    dsimp only
    split
    · exact .ok _
    · exact .error rfl

theorem columnsMatch (config : Config) (expected actual : List Column) :
    Conclusive (columnsMatch config expected actual) := by
  unfold TableDiff.columnsMatch
  cases config.columnMode with
  | positional => exact .ok _
  | byName =>
      apply bind (columnsByName config .expected expected)
      intro expected
      exact bind (columnsByName config .actual actual) fun _ => .ok _

theorem checkNames (config : Config) (expected actual : List Column) :
    Conclusive (checkNames config expected actual) := by
  unfold TableDiff.checkNames
  cases config.columnMode with
  | positional => exact .ok _
  | byName =>
      apply bind (columnsByName config .expected expected)
      intro _
      exact bind (columnsByName config .actual actual) fun _ => .ok _

theorem keyColumnsMatch (config : Config) (expected actual : List Column) :
    Conclusive (keyColumnsMatch config expected actual) := by
  apply bind (checkNames config expected actual)
  intro _
  apply bind (columnsMatch config _ _)
  intro matched
  cases matched with
  | true => exact columnsMatch config expected actual
  | false => exact .ok _

theorem comparisonColumnsMatch (c : Comparison) : Conclusive c.columnsMatch := by
  unfold Comparison.columnsMatch
  split
  · exact keyColumnsMatch _ _ _
  · exact columnsMatch _ _ _

theorem allRowsMatch (m : CellMatcher) (rows : List (Row × Row)) :
    Conclusive (allRowsMatch m rows) := by
  induction rows with
  | nil => exact .ok _
  | cons p rows ih =>
      apply bind (rowsMatch m p.1 p.2)
      intro matched
      cases matched with
      | true => exact ih
      | false => exact .ok _

theorem ordered (m : CellMatcher) (s t : Table) : Conclusive (RowMatch.ordered m s t) := by
  unfold RowMatch.ordered
  dsimp only
  split
  · exact bind (allRowsMatch m _) fun _ => .ok _
  · exact .ok _

theorem keyedEntries (config : Config) (m : CellMatcher) (t : Table) :
    Conclusive (RowMatch.keyedEntries config m t) := by
  apply mapM
  intro e
  exact bind (.lift _) fun _ => .ok _

end Conclusive

namespace Threshold

variable (m : CellMatcher)

theorem ofGroup (g : RowMatch.KeyGroup) : Threshold fun limit => RowMatch.ofGroup m limit g := by
  unfold RowMatch.ofGroup
  split
  · next e a _ _ =>
    exact const (.bind (.rowsMatch m e.row a.row) fun _ => .ok _)
  · apply ite
    · exact anyOrder m _ _
    · exact const (.ok _)

/-- The groups are matched in turn; the one with the most dead ends decides. -/
theorem byKey (config : Config) (s t : Table) :
    Threshold fun limit => RowMatch.byKey { config with permutationLimit := limit } m s t := by
  apply (const (.keyedEntries config m s)).bind
  intro expected
  apply (const (.keyedEntries config m t)).bind
  intro actual
  exact (mapM (fun g => ofGroup m g) (RowMatch.keyGroups expected actual)).map _

theorem matchRows (config : Config) (s t : Table) :
    Threshold fun limit => matchRows { config with permutationLimit := limit } m s t := by
  unfold TableDiff.matchRows
  cases config.rowMode with
  | ordered => exact const (.ordered m s t)
  | anyOrder => exact anyOrder m _ _
  | byKey => exact byKey m config s t

theorem validate (config : Config) :
    Threshold fun limit => Config.validate { config with permutationLimit := limit } := by
  refine ⟨0, .ok (), .ok (), ?_⟩
  intro limit hlimit
  rw [upTo_of_lt hlimit]
  exact if_neg (Nat.ne_of_gt hlimit)

theorem outcome (config : Config) (s t : Table) :
    Threshold fun limit =>
      Comparison.outcome ⟨{ config with permutationLimit := limit }, s, t⟩ := by
  let columns := pairColumns config s.columns t.columns
  apply (validate config).bind
  intro _
  apply (const (.comparisonColumnsMatch ⟨config, s, t⟩)).bind
  intro matched
  apply ite
  · exact (matchRows (.ofColumns config s.columns t.columns) config s t).map fun rows =>
      Outcome.mk rows.matched rows.lines columns
  · exact const (.ok (Outcome.mk false (DiffLine.positional s.rows.length t.rows.length) columns))

end Threshold

namespace Comparison

/-- A comparison has one outcome, or one error, and a number of dead ends, and every limit above
this number gives that outcome and every other limit gives up. -/
theorem outcome_threshold
    (columnMode : ColumnMode) (rowMode : RowMode) (conversion : ConversionMode)
    (nameCase : NameCase) (s t : Table) :
    (∃ deadEnds result, (∀ e, result = .error e → e.isTooManyPermutations = false) ∧
      ∀ limit, 1 ≤ limit →
        outcome ⟨⟨columnMode, rowMode, limit, conversion, nameCase⟩, s, t⟩ =
          if deadEnds < limit then result else .error (.tooManyPermutations limit)) ∧
    ∀ limit higher, 1 ≤ limit → limit ≤ higher →
      (∀ e, outcome ⟨⟨columnMode, rowMode, limit, conversion, nameCase⟩, s, t⟩ = .error e →
        e.isTooManyPermutations = false) →
      outcome ⟨⟨columnMode, rowMode, higher, conversion, nameCase⟩, s, t⟩ =
        outcome ⟨⟨columnMode, rowMode, limit, conversion, nameCase⟩, s, t⟩ := by
  have hthreshold := Threshold.outcome ⟨columnMode, rowMode, 1, conversion, nameCase⟩ s t
  constructor
  · exact hthreshold
  · intro limit higher hlimit hle hconclusive
    exact hthreshold.eq_of_conclusive hlimit hle hconclusive

end Comparison

end TableDiff
