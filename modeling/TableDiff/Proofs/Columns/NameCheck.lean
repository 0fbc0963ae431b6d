import TableDiff.Proofs.Outcome.Faults

/-!
# Checking columns by name

The check goes through sorted lists, but what it decides is a law of two maps from names to types.
A side that is no map is refused, the expected one before the actual one is looked at; two maps
match if they have the same names and give them compatible types.  The order of the columns has no
part in it.

The check that looks at the key columns first asks for more, and for nothing else: that the same
names are keys on both sides.  It has no faults of its own, so a comparison reports the faults of
names alike in every row mode.
-/

namespace TableDiff

section

variable {nameCase : NameCase} {config : Config} {side : Side} {fault : MatchError}
  {columns columns' expected expected' actual actual' : List Column} {names : List String}

/-! ## The result of the check -/

/-- The columns of both sides have the same names and, under each of them, compatible types. -/
structure SameMap (config : Config) (expected actual : List Column) : Prop where
  names_iff : ∀ name, name ∈ expected.map (·.normalizedName config.nameCase) ↔
    name ∈ actual.map (·.normalizedName config.nameCase)
  types : CompatibleByName config expected actual

theorem columnsMatchByName_eq_error_iff :
    columnsMatchByName config expected actual = .error fault ↔
      NameFault config.nameCase .expected expected fault ∨
        (DistinctNames config.nameCase expected ∧
          NameFault config.nameCase .actual actual fault) := by
  rw [columnsMatchByName, bind_eq_error_iff, columnsByName_eq_error_iff]
  refine or_congr_right ⟨?_, ?_⟩
  · rintro ⟨sorted, hsorted, h⟩
    rcases bind_eq_error_iff.mp h with hactual | ⟨_, _, hpure⟩
    · exact ⟨distinctNames_of_columnsByName hsorted, columnsByName_eq_error_iff.mp hactual⟩
    · cases hpure
  · rintro ⟨hexpected, hactual⟩
    exact ⟨_, hexpected.columnsByName_eq_ok .expected,
      bind_eq_error_iff.mpr (.inl (columnsByName_eq_error_iff.mpr hactual))⟩

theorem exists_columnsMatchByName_eq_ok_iff :
    (∃ matched, columnsMatchByName config expected actual = .ok matched) ↔
      DistinctNames config.nameCase expected ∧ DistinctNames config.nameCase actual := by
  constructor
  · rintro ⟨matched, h⟩
    obtain ⟨sorted, hsorted, h⟩ := bind_eq_ok_iff.mp h
    obtain ⟨sorted', hsorted', _⟩ := bind_eq_ok_iff.mp h
    exact ⟨distinctNames_of_columnsByName hsorted, distinctNames_of_columnsByName hsorted'⟩
  · rintro ⟨hexpected, hactual⟩
    rw [columnsMatchByName, hexpected.columnsByName_eq_ok, hactual.columnsByName_eq_ok]
    exact ⟨_, rfl⟩

theorem columnsMatchByName_eq_ok_true_iff_sameMap
    (h : DistinctNames config.nameCase expected ∧ DistinctNames config.nameCase actual) :
    columnsMatchByName config expected actual = .ok true ↔ SameMap config expected actual := by
  rw [columnsMatchByName_eq_ok_true_iff, h.1.sameNames_iff h.2]
  constructor
  · rintro ⟨hnames, htypes⟩
    exact ⟨hnames, htypes⟩
  · rintro ⟨hnames, htypes⟩
    exact ⟨hnames, htypes⟩

theorem columnsMatchByName_eq_ok_iff {matched : Bool} :
    columnsMatchByName config expected actual = .ok matched ↔
      (DistinctNames config.nameCase expected ∧ DistinctNames config.nameCase actual) ∧
        (matched = true ↔ SameMap config expected actual) := by
  constructor
  · intro h
    have hdistinct := exists_columnsMatchByName_eq_ok_iff.mp ⟨matched, h⟩
    rw [← columnsMatchByName_eq_ok_true_iff_sameMap hdistinct, h, Except.ok.injEq]
    exact ⟨hdistinct, Iff.rfl⟩
  · rintro ⟨hdistinct, hmatched⟩
    obtain ⟨b, hb⟩ := exists_columnsMatchByName_eq_ok_iff.mpr hdistinct
    rw [← columnsMatchByName_eq_ok_true_iff_sameMap hdistinct, hb, Except.ok.injEq,
      ← Bool.eq_iff_iff] at hmatched
    rw [hb, hmatched]

/-! ## Columns in another order -/

theorem DistinctNames.perm (h : DistinctNames nameCase columns) (hperm : columns.Perm columns') :
    DistinctNames nameCase columns' where
  named := by
    intro c hc
    exact h.named c (hperm.mem_iff.mpr hc)
  nodup := (hperm.map _).nodup_iff.mp h.nodup

theorem RepeatedNames.perm (h : RepeatedNames nameCase columns names)
    (hperm : columns.Perm columns') : RepeatedNames nameCase columns' names where
  ascending := h.ascending
  mem_iff := by
    intro name
    rw [h.mem_iff name, (hperm.map _).count_eq]

theorem NameFault.perm (h : NameFault nameCase side columns fault)
    (hperm : columns.Perm columns') : NameFault nameCase side columns' fault := by
  cases h with
  | unnamed hunnamed =>
      obtain ⟨c, hc, hname⟩ := hunnamed
      exact .unnamed ⟨c, hperm.mem_iff.mp hc, hname⟩
  | repeated hnamed hrepeated hnames =>
      have hnamed' : ∀ c ∈ columns', c.name?.isSome = true := by
        intro c hc
        exact hnamed c (hperm.mem_iff.mpr hc)
      exact .repeated hnamed' (mt (hperm.map _).nodup_iff.mpr hrepeated) (hnames.perm hperm)

theorem SameMap.perm (h : SameMap config expected actual) (hexpected : expected.Perm expected')
    (hactual : actual.Perm actual') : SameMap config expected' actual' where
  names_iff := by
    intro name
    rw [← (hexpected.map _).mem_iff, h.names_iff name, (hactual.map _).mem_iff]
  types := by
    intro c hc d hd
    exact h.types c (hexpected.mem_iff.mpr hc) d (hactual.mem_iff.mpr hd)

theorem columnsMatchByName_perm (hexpected : expected.Perm expected')
    (hactual : actual.Perm actual') :
    columnsMatchByName config expected' actual' = columnsMatchByName config expected actual := by
  cases h : columnsMatchByName config expected actual with
  | error fault =>
      rw [columnsMatchByName_eq_error_iff] at h ⊢
      rcases h with hfault | ⟨hdistinct, hfault⟩
      · exact .inl (hfault.perm hexpected)
      · exact .inr ⟨hdistinct.perm hexpected, hfault.perm hactual⟩
  | ok matched =>
      rw [columnsMatchByName_eq_ok_iff] at h ⊢
      obtain ⟨⟨hdistinct, hdistinct'⟩, hmatched⟩ := h
      refine ⟨⟨hdistinct.perm hexpected, hdistinct'.perm hactual⟩, hmatched.trans ⟨?_, ?_⟩⟩
      · intro hsame
        exact hsame.perm hexpected hactual
      · intro hsame
        exact hsame.perm hexpected.symm hactual.symm

/-- By name, columns have to be a map from names to types on either side.  A side that is none is
reported, the expected side first: for a column without a name, or else for the names that repeat,
each of them once.  Two maps match if they are the same up to compatible types.  No order of the
columns changes the answer. -/
theorem columnsMatch_byName (hmode : config.columnMode = .byName)
    (expected actual : List Column) :
    (∀ fault, columnsMatch config expected actual = .error fault ↔
        NameFault config.nameCase .expected expected fault ∨
          (DistinctNames config.nameCase expected ∧
            NameFault config.nameCase .actual actual fault)) ∧
      (∀ side names, (MatchError.duplicateColumnNames side names).message =
        side.name ++ " table has duplicate column names: " ++ ", ".intercalate names) ∧
      (∀ matched, columnsMatch config expected actual = .ok matched ↔
        (DistinctNames config.nameCase expected ∧ DistinctNames config.nameCase actual) ∧
          (matched = true ↔ SameMap config expected actual)) ∧
      ∀ expected' actual', expected.Perm expected' → actual.Perm actual' →
        columnsMatch config expected' actual' = columnsMatch config expected actual := by
  have hcheck : ∀ expected actual,
      columnsMatch config expected actual = columnsMatchByName config expected actual := by
    intro expected actual
    rw [columnsMatch, hmode]
  simp only [hcheck]
  refine ⟨?_, ?_, ?_, ?_⟩
  · intro fault
    exact columnsMatchByName_eq_error_iff
  · intro side names
    rfl
  · intro matched
    exact columnsMatchByName_eq_ok_iff
  · intro expected' actual' hexpected hactual
    exact columnsMatchByName_perm hexpected hactual

end

/-- Integer columns with the given names. -/
def integerColumns (names : List String) : List Column :=
  names.map fun name => ⟨some name, .integer, false⟩

theorem columnsMatch_byName_zmzmz :
    columnsMatch { columnMode := .byName } (integerColumns ["m"])
        (integerColumns ["z", "m", "z", "m", "z"]) =
      .error (.duplicateColumnNames .actual ["m", "z"]) ∧
    (MatchError.duplicateColumnNames .actual ["m", "z"]).message =
      "actual table has duplicate column names: m, z" ∧
    columnsMatch { columnMode := .byName } (integerColumns ["b", "a"])
      (integerColumns ["a", "b"]) = .ok true := by
  have hmode : ({ columnMode := .byName } : Config).columnMode = .byName := rfl
  obtain ⟨hfault, hmessage, _⟩ := columnsMatch_byName hmode (integerColumns ["m"])
    (integerColumns ["z", "m", "z", "m", "z"])
  obtain ⟨_, _, hok, _⟩ := columnsMatch_byName hmode (integerColumns ["b", "a"])
    (integerColumns ["a", "b"])
  have hrepeated : NameFault .sensitive .actual (integerColumns ["z", "m", "z", "m", "z"])
      (.duplicateColumnNames .actual ["m", "z"]) :=
    .repeated (by decide) (by decide) (by decide)
  have hdistinct : DistinctNames .sensitive (integerColumns ["b", "a"]) ∧
      DistinctNames .sensitive (integerColumns ["a", "b"]) :=
    ⟨⟨by decide, by decide⟩, by decide, by decide⟩
  have hsame : SameMap { columnMode := .byName } (integerColumns ["b", "a"])
      (integerColumns ["a", "b"]) := by
    constructor
    · intro name
      simp [integerColumns, Column.normalizedName, NameCase.normalize, or_comm]
    · unfold CompatibleByName
      decide
  refine ⟨?_, hmessage _ _, ?_⟩
  · rw [hfault]
    exact .inr ⟨⟨by decide, by decide⟩, hrepeated⟩
  · rw [hok]
    exact ⟨hdistinct, iff_of_true rfl hsame⟩

/-! ## The key columns first -/

theorem exists_keyColumnsMatch_positional {config : Config}
    (hmode : config.columnMode = .positional) (expected actual : List Column) :
    ∃ matched, keyColumnsMatch config expected actual = .ok matched := by
  apply exists_eq_ok_of_ne_error
  intro fault hfault
  rw [keyColumnsMatch_eq_error_iff, checkNames, hmode] at hfault
  cases hfault

/-- By name, the check with the key columns first has just the faults of the check of all columns,
and it succeeds if that check does and the same names are keys.  By position it never fails and is
the stricter of the two.  In every row mode a comparison reports the faults of the check of all
columns. -/
theorem keyColumnsMatch_refines_columnsMatch (config : Config) (expected actual : List Column) :
    (config.columnMode = .byName →
      (∀ fault, keyColumnsMatch config expected actual = .error fault ↔
        columnsMatch config expected actual = .error fault) ∧
      (keyColumnsMatch config expected actual = .ok true ↔
        columnsMatch config expected actual = .ok true ∧
          SameKeyNames config.nameCase expected actual)) ∧
    (config.columnMode = .positional →
      (∃ matched, keyColumnsMatch config expected actual = .ok matched) ∧
      (keyColumnsMatch config expected actual = .ok true →
        columnsMatch config expected actual = .ok true)) ∧
    (1 ≤ config.permutationLimit → ∀ rowMode, ∀ s t : Table,
      s.columns = expected → t.columns = actual → ∀ fault,
        (Comparison.mk { config with rowMode } s t).outcome = .error fault ∧
            fault.isNameFault = true ↔
          columnsMatch config expected actual = .error fault) := by
  refine ⟨?_, ?_, ?_⟩
  · intro hmode
    constructor
    · intro fault
      rw [keyColumnsMatch_eq_error_iff, columnsMatch_eq_error_iff]
    · exact keyColumnsMatch_byName_eq_ok_true_iff hmode
  · intro hmode
    constructor
    · exact exists_keyColumnsMatch_positional hmode expected actual
    · intro hkeys
      exact columnsMatch_of_keyColumnsMatch hkeys
  · rintro hlimit rowMode s t rfl rfl fault
    rw [columnsMatch_eq_error_iff]
    exact Comparison.outcome_nameFault_iff (c := ⟨{ config with rowMode }, s, t⟩) hlimit

/-- Integer key columns with the given names. -/
def integerKeys (names : List String) : List Column :=
  names.map fun name => ⟨some name, .integer, true⟩

theorem keyColumnsMatch_refines_columnsMatch_keyMoved :
    columnsMatch { columnMode := .byName } (integerKeys ["k"] ++ integerColumns ["v"])
        (integerColumns ["k"] ++ integerKeys ["v"]) = .ok true ∧
      keyColumnsMatch { columnMode := .byName } (integerKeys ["k"] ++ integerColumns ["v"])
        (integerColumns ["k"] ++ integerKeys ["v"]) ≠ .ok true ∧
      columnsMatch {} (integerKeys ["k"] ++ integerColumns ["v"])
        (integerColumns ["k"] ++ integerKeys ["v"]) = .ok true ∧
      keyColumnsMatch { columnMode := .byName } (integerKeys ["k"] ++ integerColumns ["v", "v"])
        (integerColumns ["k"] ++ integerKeys ["v"]) =
          .error (.duplicateColumnNames .expected ["v"]) ∧
      (Comparison.mk { columnMode := .byName, rowMode := .anyOrder }
        ⟨integerKeys ["k"] ++ integerColumns ["v", "v"], [], .strict⟩
        ⟨integerColumns ["k"] ++ integerKeys ["v"], [], .strict⟩).outcome =
          .error (.duplicateColumnNames .expected ["v"]) := by
  have hall : columnsMatch { columnMode := .byName } (integerKeys ["k"] ++ integerColumns ["v"])
      (integerColumns ["k"] ++ integerKeys ["v"]) = .ok true := by
    refine columnsMatchByName_eq_ok_true_iff.mpr ⟨⟨by decide, by decide, by decide⟩, ?_⟩
    unfold CompatibleByName
    decide
  have hrepeated : columnsMatch { columnMode := .byName }
      (integerKeys ["k"] ++ integerColumns ["v", "v"]) (integerColumns ["k"] ++ integerKeys ["v"]) =
        .error (.duplicateColumnNames .expected ["v"]) :=
    columnsMatchByName_eq_error_iff.mpr (.inl (.repeated (by decide) (by decide) (by decide)))
  obtain ⟨hbyName, _, _⟩ := keyColumnsMatch_refines_columnsMatch { columnMode := .byName }
    (integerKeys ["k"] ++ integerColumns ["v"]) (integerColumns ["k"] ++ integerKeys ["v"])
  obtain ⟨_, hpositional, _⟩ := keyColumnsMatch_refines_columnsMatch {}
    (integerKeys ["k"] ++ integerColumns ["v"]) (integerColumns ["k"] ++ integerKeys ["v"])
  obtain ⟨hfaults, _, houtcome⟩ := keyColumnsMatch_refines_columnsMatch { columnMode := .byName }
    (integerKeys ["k"] ++ integerColumns ["v", "v"]) (integerColumns ["k"] ++ integerKeys ["v"])
  refine ⟨hall, ?_, (hpositional rfl).2 (by decide), ?_, ?_⟩
  · intro hmatch
    obtain ⟨_, hsame⟩ := (hbyName rfl).2.mp hmatch
    have hkeys := (hsame "k").mp (by decide)
    revert hkeys
    decide
  · rw [(hfaults rfl).1]
    exact hrepeated
  · have hended := (houtcome (by decide) .anyOrder ⟨_, [], .strict⟩ ⟨_, [], .strict⟩
      rfl rfl _).mpr hrepeated
    exact hended.1

end TableDiff
