import TableDiff.Proofs.Columns.Names
import TableDiff.Proofs.Outcome

/-!
# Faults of the columns

Columns are compared or they are refused for their names, and nothing else about the two tables
decides which.  Matching by name refuses just the columns that their names do not tell apart, and
says which names those are; matching by position refuses none.  Whether the key columns are compared
first makes no difference.
-/

namespace TableDiff

/-- Whether the names of columns are at fault. -/
def MatchError.isNameFault : MatchError → Bool
  | unnamedColumns _ => true
  | duplicateColumnNames _ _ => true
  | _ => false

/-- The names that more than one column has, once each and in ascending order. -/
structure RepeatedNames (nameCase : NameCase) (columns : List Column) (names : List String) :
    Prop where
  ascending : names.Pairwise (· < ·)
  mem_iff : ∀ name,
    name ∈ names ↔ 2 ≤ (columns.map (·.normalizedName nameCase)).count name

/-- What keeps the columns of one table from being told apart by their names: one of them has none,
or else several have the same. -/
inductive NameFault (nameCase : NameCase) (side : Side) (columns : List Column) :
    MatchError → Prop where
  | unnamed (h : ∃ c ∈ columns, c.name? = none) :
      NameFault nameCase side columns (.unnamedColumns side)
  | repeated {names : List String} (hnamed : ∀ c ∈ columns, c.name?.isSome = true)
      (hrepeated : ¬(columns.map (·.normalizedName nameCase)).Nodup)
      (hnames : RepeatedNames nameCase columns names) :
      NameFault nameCase side columns (.duplicateColumnNames side names)

section

variable {nameCase : NameCase} {config : Config} {expected actual columns : List Column}
  {side : Side} {fault : MatchError}

theorem RepeatedNames.eq {names names' : List String} (h : RepeatedNames nameCase columns names)
    (h' : RepeatedNames nameCase columns names') : names = names' := by
  apply h.ascending.eq_of_mem_iff h'.ascending
  intro name
  rw [h.mem_iff name, h'.mem_iff name]

/-- Only names that are there have to be counted. -/
theorem repeatedNames_iff {names : List String} :
    RepeatedNames nameCase columns names ↔
      names.Pairwise (· < ·) ∧
        ∀ name ∈ names ++ columns.map (·.normalizedName nameCase),
          name ∈ names ↔ 2 ≤ (columns.map (·.normalizedName nameCase)).count name := by
  constructor
  · intro h
    refine ⟨h.ascending, ?_⟩
    intro name _
    exact h.mem_iff name
  · rintro ⟨hascending, hcount⟩
    refine ⟨hascending, ?_⟩
    intro name
    by_cases hmem : name ∈ names ++ columns.map (·.normalizedName nameCase)
    · exact hcount name hmem
    · rw [List.mem_append, not_or] at hmem
      rw [List.count_eq_zero.mpr hmem.2]
      exact iff_of_false hmem.1 (by decide)

instance (nameCase : NameCase) (columns : List Column) (names : List String) :
    Decidable (RepeatedNames nameCase columns names) :=
  decidable_of_iff _ repeatedNames_iff.symm

theorem repeatedNames_repeated (nameCase : NameCase) (columns : List Column) :
    RepeatedNames nameCase columns
      (repeated ((sortedColumns nameCase columns).map (·.1))) where
  ascending := pairwise_lt_repeated (pairwise_sortedColumns nameCase columns)
  mem_iff := by
    intro name
    rw [mem_repeated_iff (pairwise_sortedColumns nameCase columns),
      List.duplicate_iff_two_le_count, (map_fst_sortedColumns_perm nameCase columns).count_eq]

theorem distinctNames_of_columnsByName {sorted : List (String × DataType)}
    (h : columnsByName config side columns = .ok sorted) :
    DistinctNames config.nameCase columns := by
  obtain ⟨hnamed, _, hnodup⟩ := columnsByName_eq_ok h
  exact ⟨hnamed, hnodup⟩

theorem not_distinctNames_iff :
    ¬DistinctNames nameCase columns ↔
      (∃ c ∈ columns, c.name? = none) ∨ ¬(columns.map (·.normalizedName nameCase)).Nodup := by
  constructor
  · intro h
    by_cases hnamed : ∀ c ∈ columns, c.name?.isSome = true
    · exact .inr fun hnodup => h ⟨hnamed, hnodup⟩
    · push Not at hnamed
      obtain ⟨c, hc, hname⟩ := hnamed
      exact .inl ⟨c, hc, Option.not_isSome_iff_eq_none.mp hname⟩
  · rintro (⟨c, hc, hname⟩ | hrepeated) h
    · have hsome := h.named c hc
      rw [hname] at hsome
      cases hsome
    · exact hrepeated h.nodup

theorem columnsByName_eq_error_iff :
    columnsByName config side columns = .error fault ↔
      NameFault config.nameCase side columns fault := by
  have hrefused : (∀ c ∈ columns, c.name?.isSome = true) →
      ¬(columns.map (·.normalizedName config.nameCase)).Nodup →
        columnsByName config side columns = .error (.duplicateColumnNames side
          (repeated ((sortedColumns config.nameCase columns).map (·.1)))) := by
    intro hnamed hrepeated
    rw [columnsByName_of_named config side hnamed, if_neg]
    rw [repeated_sortedColumns_eq_nil_iff]
    exact hrepeated
  constructor
  · intro h
    by_cases hunnamed : ∃ c ∈ columns, c.name? = none
    · cases (columnsByName_of_unnamed config side hunnamed).symm.trans h
      exact .unnamed hunnamed
    · have hnamed : ∀ c ∈ columns, c.name?.isSome = true := by
        intro c hc
        rw [Option.isSome_iff_ne_none]
        intro hname
        exact hunnamed ⟨c, hc, hname⟩
      have hrepeated : ¬(columns.map (·.normalizedName config.nameCase)).Nodup := by
        intro hnodup
        cases (columnsByName_of_nodup config side hnamed hnodup).symm.trans h
      cases (hrefused hnamed hrepeated).symm.trans h
      exact .repeated hnamed hrepeated (repeatedNames_repeated config.nameCase columns)
  · intro h
    cases h with
    | unnamed hunnamed => exact columnsByName_of_unnamed config side hunnamed
    | repeated hnamed hrepeated hnames =>
        rw [hrefused hnamed hrepeated, hnames.eq (repeatedNames_repeated config.nameCase columns)]

theorem NameFault.isNameFault (h : NameFault nameCase side columns fault) :
    fault.isNameFault = true := by
  cases h with
  | unnamed _ => rfl
  | repeated _ _ _ => rfl

theorem checkNames_eq_ok_iff :
    checkNames config expected actual = .ok () ↔
      (config.columnMode = .byName →
        DistinctNames config.nameCase expected ∧ DistinctNames config.nameCase actual) := by
  unfold checkNames
  cases hmode : config.columnMode with
  | positional => simp
  | byName =>
      dsimp only
      constructor
      · intro h _
        obtain ⟨_, hexpected, h⟩ := bind_eq_ok_iff.mp h
        obtain ⟨_, hactual, _⟩ := bind_eq_ok_iff.mp h
        exact ⟨distinctNames_of_columnsByName hexpected, distinctNames_of_columnsByName hactual⟩
      · intro h
        obtain ⟨hexpected, hactual⟩ := h rfl
        rw [hexpected.columnsByName_eq_ok, hactual.columnsByName_eq_ok]
        rfl

theorem isNameFault_of_checkNames (h : checkNames config expected actual = .error fault) :
    fault.isNameFault = true := by
  unfold checkNames at h
  cases hmode : config.columnMode with
  | positional =>
      rw [hmode] at h
      cases h
  | byName =>
      rw [hmode] at h
      rcases bind_eq_error_iff.mp h with hexpected | ⟨_, _, h⟩
      · exact (columnsByName_eq_error_iff.mp hexpected).isNameFault
      rcases bind_eq_error_iff.mp h with hactual | ⟨_, _, hpure⟩
      · exact (columnsByName_eq_error_iff.mp hactual).isNameFault
      · cases hpure

theorem exists_checkNames_eq_error_iff :
    (∃ fault, checkNames config expected actual = .error fault) ↔
      config.columnMode = .byName ∧ ∃ columns ∈ [expected, actual],
        (∃ c ∈ columns, c.name? = none) ∨
          ¬(columns.map (·.normalizedName config.nameCase)).Nodup := by
  have herror : (∃ fault, checkNames config expected actual = .error fault) ↔
      ¬checkNames config expected actual = .ok () := by
    cases checkNames config expected actual with
    | ok _ => simp
    | error fault => simp
  rw [herror, checkNames_eq_ok_iff]
  simp only [List.mem_cons, List.not_mem_nil, or_false, exists_eq_or_imp, exists_eq_left,
    ← not_distinctNames_iff]
  tauto

/-- Comparing all columns only fails where looking for faults of names does. -/
theorem columnsMatch_eq_error_iff :
    columnsMatch config expected actual = .error fault ↔
      checkNames config expected actual = .error fault := by
  unfold columnsMatch checkNames
  cases config.columnMode with
  | positional => simp
  | byName =>
      dsimp only
      rw [columnsMatchByName]
      cases columnsByName config .expected expected with
      | error e => simp only [error_bind, Except.error.injEq]
      | ok sorted =>
          cases columnsByName config .actual actual with
          | error e => simp only [ok_bind, error_bind, Except.error.injEq]
          | ok sorted' => simp [pure, Except.pure]

theorem exists_columnsMatch_eq_ok (h : checkNames config expected actual = .ok ()) :
    ∃ b, columnsMatch config expected actual = .ok b := by
  apply exists_eq_ok_of_ne_error
  intro fault hfault
  rw [columnsMatch_eq_error_iff, h] at hfault
  cases hfault

theorem checkNames_keyColumns (h : checkNames config expected actual = .ok ()) :
    checkNames config (keyColumns expected) (keyColumns actual) = .ok () := by
  rw [checkNames_eq_ok_iff] at h ⊢
  intro hmode
  obtain ⟨hexpected, hactual⟩ := h hmode
  exact ⟨hexpected.keyColumns, hactual.keyColumns⟩

/-- The names of all columns are looked at before the key columns are compared, so that the key
columns have no fault of their own. -/
theorem keyColumnsMatch_eq_error_iff :
    keyColumnsMatch config expected actual = .error fault ↔
      checkNames config expected actual = .error fault := by
  rw [keyColumnsMatch]
  cases hcheck : checkNames config expected actual with
  | error e => simp only [error_bind, Except.error.injEq]
  | ok _ =>
      obtain ⟨matched, hkeys⟩ := exists_columnsMatch_eq_ok (checkNames_keyColumns hcheck)
      obtain ⟨matched', hall⟩ := exists_columnsMatch_eq_ok hcheck
      rw [ok_bind, hkeys, ok_bind, hall]
      cases matched with
      | true => simp
      | false => simp [pure, Except.pure]

end

theorem Comparison.columnsMatch_eq_error_iff {c : Comparison} {fault : MatchError} :
    c.columnsMatch = .error fault ↔
      checkNames c.config c.expected.columns c.actual.columns = .error fault := by
  by_cases hrows : c.config.rowMode = .byKey
  · rw [columnsMatch_of_byKey hrows]
    exact keyColumnsMatch_eq_error_iff
  · rw [columnsMatch_of_ne_byKey hrows]
    exact TableDiff.columnsMatch_eq_error_iff

end TableDiff
