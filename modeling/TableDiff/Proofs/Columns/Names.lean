import TableDiff.Proofs.Columns

/-!
# Columns as a map from names to types

Columns that are matched by name are a map, if each of them has a name and no two share one.  Two
such maps match when they have the same names and give them compatible types.  What the columns of
two tables have in common by name, their key columns have among themselves, if the same names are
keys.
-/

namespace TableDiff

section

variable {config : Config} {columns expected actual : List Column}

/-- The columns in the order of their names. -/
def sortedColumns (nameCase : NameCase) (columns : List Column) : List (String × DataType) :=
  sortBy (compareOn (·.1)) (columns.map fun c => (c.normalizedName nameCase, c.type))

theorem mem_sortedColumns {nameCase : NameCase} {p : String × DataType} :
    p ∈ sortedColumns nameCase columns ↔
      ∃ c ∈ columns, (c.normalizedName nameCase, c.type) = p := by
  rw [sortedColumns, mem_sortBy, List.mem_map]

theorem map_fst_sortedColumns_perm (nameCase : NameCase) (columns : List Column) :
    ((sortedColumns nameCase columns).map (·.1)).Perm
      (columns.map (·.normalizedName nameCase)) := by
  have hperm := (sortBy_perm (compareOn (·.1))
    (columns.map fun c => (c.normalizedName nameCase, c.type))).map (·.1)
  rwa [List.map_map] at hperm

theorem pairwise_sortedColumns (nameCase : NameCase) (columns : List Column) :
    ((sortedColumns nameCase columns).map (·.1)).Pairwise
      fun a b => (compare a b).isLE = true := by
  have hsorted := pairwise_sortBy (compareOn (·.1))
    (columns.map fun c => (c.normalizedName nameCase, c.type))
  exact List.pairwise_map.mpr hsorted

/-- Columns without a name are reported before anything else. -/
theorem columnsByName_of_unnamed (config : Config) (side : Side)
    (h : ∃ c ∈ columns, c.name? = none) :
    columnsByName config side columns = .error (.unnamedColumns side) := by
  obtain ⟨c, hc, hname⟩ := h
  refine bind_eq_error_iff.mpr (.inl (mapM_eq_error hc (by rw [hname]) ?_))
  intro d _ e hd
  cases hname : d.name? with
  | none =>
      rw [hname] at hd
      exact (Except.error.inj hd).symm
  | some name =>
      rw [hname] at hd
      cases hd

theorem columnsByName_of_named (config : Config) (side : Side)
    (h : ∀ c ∈ columns, c.name?.isSome = true) :
    columnsByName config side columns =
      if repeated ((sortedColumns config.nameCase columns).map (·.1)) = [] then
        .ok (sortedColumns config.nameCase columns)
      else
        .error (.duplicateColumnNames side
          (repeated ((sortedColumns config.nameCase columns).map (·.1)))) := by
  unfold columnsByName
  rw [mapM_eq_ok_map (g := fun c => (c.normalizedName config.nameCase, c.type))]
  · rw [ok_bind, ← sortedColumns]
    dsimp only
    split
    · next hnone =>
      rw [if_pos hnone]
      rfl
    · next hsome =>
      rw [if_neg hsome]
      rfl
  · intro c hc
    obtain ⟨name, hname⟩ := Option.isSome_iff_exists.mp (h c hc)
    simp [Column.normalizedName, hname]

theorem repeated_sortedColumns_eq_nil_iff (nameCase : NameCase) (columns : List Column) :
    repeated ((sortedColumns nameCase columns).map (·.1)) = [] ↔
      (columns.map (·.normalizedName nameCase)).Nodup := by
  rw [repeated_eq_nil_iff (pairwise_sortedColumns nameCase columns)]
  exact (map_fst_sortedColumns_perm nameCase columns).nodup_iff

theorem columnsByName_of_nodup (config : Config) (side : Side)
    (h : ∀ c ∈ columns, c.name?.isSome = true)
    (hnodup : (columns.map (·.normalizedName config.nameCase)).Nodup) :
    columnsByName config side columns = .ok (sortedColumns config.nameCase columns) := by
  rw [columnsByName_of_named config side h,
    if_pos ((repeated_sortedColumns_eq_nil_iff config.nameCase columns).mpr hnodup)]

theorem columnsByName_of_not_nodup (config : Config) (side : Side)
    (h : ∀ c ∈ columns, c.name?.isSome = true)
    (hrepeated : ¬(columns.map (·.normalizedName config.nameCase)).Nodup) :
    ∃ names, columnsByName config side columns = .error (.duplicateColumnNames side names) := by
  rw [columnsByName_of_named config side h,
    if_neg (mt (repeated_sortedColumns_eq_nil_iff config.nameCase columns).mp hrepeated)]
  exact ⟨_, rfl⟩

/-! ## Names that tell columns apart -/

/-- All columns have names, and no two of them the same. -/
structure DistinctNames (nameCase : NameCase) (columns : List Column) : Prop where
  named : ∀ c ∈ columns, c.name?.isSome = true
  nodup : (columns.map (·.normalizedName nameCase)).Nodup

namespace DistinctNames

variable {nameCase : NameCase}

theorem columnsByName_eq_ok (h : DistinctNames config.nameCase columns) (side : Side) :
    columnsByName config side columns = .ok (sortedColumns config.nameCase columns) :=
  columnsByName_of_nodup config side h.named h.nodup

theorem sameNames (h : DistinctNames nameCase columns) : SameNames nameCase columns columns where
  named := by
    intro c hc
    exact h.named c ((List.mem_append.mp hc).elim id id)
  names_perm := .refl _
  nodup := h.nodup

theorem eq_of_name_eq (h : DistinctNames nameCase columns) {c d : Column} (hc : c ∈ columns)
    (hd : d ∈ columns) (hname : c.normalizedName nameCase = d.normalizedName nameCase) : c = d :=
  List.inj_on_of_nodup_map h.nodup hc hd hname

theorem sameNames_iff (h : DistinctNames nameCase expected)
    (h' : DistinctNames nameCase actual) :
    SameNames nameCase expected actual ↔
      ∀ name, name ∈ expected.map (·.normalizedName nameCase) ↔
        name ∈ actual.map (·.normalizedName nameCase) := by
  rw [← List.perm_ext_iff_of_nodup h.nodup h'.nodup]
  constructor
  · exact SameNames.names_perm
  · intro hperm
    refine ⟨?_, hperm, h'.nodup⟩
    intro c hc
    rcases List.mem_append.mp hc with hc | hc
    · exact h.named c hc
    · exact h'.named c hc

end DistinctNames

theorem SameNames.distinctNames {nameCase : NameCase} (h : SameNames nameCase expected actual) :
    DistinctNames nameCase expected ∧ DistinctNames nameCase actual := by
  constructor
  · refine ⟨?_, h.names_perm.nodup_iff.mpr h.nodup⟩
    intro c hc
    exact h.named c (List.mem_append_left _ hc)
  · refine ⟨?_, h.nodup⟩
    intro c hc
    exact h.named c (List.mem_append_right _ hc)

/-! ## Two maps that match -/

/-- Columns of the same name have compatible types. -/
def CompatibleByName (config : Config) (expected actual : List Column) : Prop :=
  ∀ c ∈ expected, ∀ d ∈ actual,
    c.normalizedName config.nameCase = d.normalizedName config.nameCase →
      c.type.compatible d.type config.conversion = true

theorem DistinctNames.compatibleByName (h : DistinctNames config.nameCase columns) :
    CompatibleByName config columns columns := by
  intro c hc d hd hname
  rw [h.eq_of_name_eq hc hd hname]
  simp [DataType.compatible]

theorem map_fst_sortedColumns_eq {nameCase : NameCase}
    (hnames : SameNames nameCase expected actual) :
    (sortedColumns nameCase expected).map (·.1) = (sortedColumns nameCase actual).map (·.1) := by
  apply eq_of_perm_of_ascending _ (pairwise_sortedColumns nameCase expected)
    (pairwise_sortedColumns nameCase actual)
  exact ((map_fst_sortedColumns_perm nameCase expected).trans hnames.names_perm).trans
    (map_fst_sortedColumns_perm nameCase actual).symm

/-- Columns of one name are at one place of the sorted maps. -/
theorem mem_zip_sortedColumns_iff {nameCase : NameCase}
    (hnames : SameNames nameCase expected actual) {p q : String × DataType} :
    (p, q) ∈ (sortedColumns nameCase expected).zip (sortedColumns nameCase actual) ↔
      p ∈ sortedColumns nameCase expected ∧ q ∈ sortedColumns nameCase actual ∧ p.1 = q.1 := by
  have hequal := map_fst_sortedColumns_eq hnames
  have hnodup : ((sortedColumns nameCase actual).map (·.1)).Nodup :=
    (map_fst_sortedColumns_perm nameCase actual).nodup_iff.mpr hnames.nodup
  rw [← List.forall₂_eq_eq_eq, List.forall₂_map_left_iff, List.forall₂_map_right_iff,
    List.forall₂_iff_zip] at hequal
  constructor
  · intro hmem
    obtain ⟨hp, hq⟩ := List.of_mem_zip hmem
    exact ⟨hp, hq, hequal.2 hmem⟩
  · rintro ⟨hp, hq, hname⟩
    obtain ⟨i, hi, rfl⟩ := List.mem_iff_getElem.mp hp
    have hi' : i < (sortedColumns nameCase actual).length := hequal.1 ▸ hi
    have hmem : ((sortedColumns nameCase expected)[i], (sortedColumns nameCase actual)[i]) ∈
        (sortedColumns nameCase expected).zip (sortedColumns nameCase actual) := by
      apply List.mem_of_getElem? (i := i)
      rw [List.getElem?_zip_eq_some]
      exact ⟨List.getElem?_eq_getElem hi, List.getElem?_eq_getElem hi'⟩
    have hsame := List.inj_on_of_nodup_map hnodup (List.getElem_mem hi') hq
      ((hequal.2 hmem).symm.trans hname)
    rwa [hsame] at hmem

theorem columnsMatchByName_eq_of_sameNames
    (hnames : SameNames config.nameCase expected actual) :
    columnsMatchByName config expected actual =
      .ok (((sortedColumns config.nameCase expected).zip
        (sortedColumns config.nameCase actual)).all fun p =>
          p.1.1 == p.2.1 && p.1.2.compatible p.2.2 config.conversion) := by
  obtain ⟨hexpected, hactual⟩ := hnames.distinctNames
  have hlength := congrArg List.length (map_fst_sortedColumns_eq hnames)
  rw [List.length_map, List.length_map] at hlength
  rw [columnsMatchByName, hexpected.columnsByName_eq_ok, hactual.columnsByName_eq_ok,
    ok_bind, ok_bind, hlength, BEq.rfl, Bool.true_and]
  rfl

/-- Two maps match if they have the same names and compatible types. -/
theorem columnsMatchByName_eq_ok_true_iff :
    columnsMatchByName config expected actual = .ok true ↔
      SameNames config.nameCase expected actual ∧ CompatibleByName config expected actual := by
  constructor
  · intro h
    have hnames := sameNames_of_columnsMatchByName h
    refine ⟨hnames, ?_⟩
    rw [columnsMatchByName_eq_of_sameNames hnames, Except.ok.injEq, List.all_eq_true] at h
    intro c hc d hd hname
    have hmem := (mem_zip_sortedColumns_iff hnames).mpr
      ⟨mem_sortedColumns.mpr ⟨c, hc, rfl⟩, mem_sortedColumns.mpr ⟨d, hd, rfl⟩, hname⟩
    exact (Bool.and_eq_true_iff.mp (h _ hmem)).2
  · rintro ⟨hnames, htypes⟩
    rw [columnsMatchByName_eq_of_sameNames hnames, Except.ok.injEq, List.all_eq_true]
    rintro ⟨p, q⟩ hmem
    obtain ⟨hp, hq, hname⟩ := (mem_zip_sortedColumns_iff hnames).mp hmem
    obtain ⟨c, hc, rfl⟩ := mem_sortedColumns.mp hp
    obtain ⟨d, hd, rfl⟩ := mem_sortedColumns.mp hq
    exact Bool.and_eq_true_iff.mpr ⟨beq_iff_eq.mpr hname, htypes c hc d hd hname⟩

/-! ## The key columns -/

/-- Columns of the same name are keys on both sides or on none. -/
def SameKeys (nameCase : NameCase) (expected actual : List Column) : Prop :=
  ∀ c ∈ expected, ∀ d ∈ actual,
    c.normalizedName nameCase = d.normalizedName nameCase → c.isKey = d.isKey

theorem mem_keyColumns {c : Column} : c ∈ keyColumns columns ↔ c ∈ columns ∧ c.isKey = true :=
  List.mem_filter

/-- The same names are those of key columns on either side. -/
def SameKeyNames (nameCase : NameCase) (expected actual : List Column) : Prop :=
  ∀ name, name ∈ (keyColumns expected).map (·.normalizedName nameCase) ↔
    name ∈ (keyColumns actual).map (·.normalizedName nameCase)

theorem DistinctNames.sameKeys {nameCase : NameCase} (h : DistinctNames nameCase columns) :
    SameKeys nameCase columns columns := by
  intro _ hc _ hd hname
  exact congrArg Column.isKey (h.eq_of_name_eq hc hd hname)

theorem DistinctNames.keyColumns {nameCase : NameCase} (h : DistinctNames nameCase columns) :
    DistinctNames nameCase (keyColumns columns) where
  named := by
    intro c hc
    exact h.named c (mem_keyColumns.mp hc).1
  nodup := (List.filter_sublist.map _).nodup h.nodup

theorem sameNames_keyColumns_iff {nameCase : NameCase} (h : SameNames nameCase expected actual) :
    SameNames nameCase (keyColumns expected) (keyColumns actual) ↔
      SameKeyNames nameCase expected actual :=
  h.distinctNames.1.keyColumns.sameNames_iff h.distinctNames.2.keyColumns

theorem SameNames.sameKeyNames {nameCase : NameCase} (h : SameNames nameCase expected actual)
    (hkeys : SameKeys nameCase expected actual) : SameKeyNames nameCase expected actual := by
  intro name
  simp only [List.mem_map, mem_keyColumns]
  constructor
  · rintro ⟨c, ⟨hc, hkey⟩, rfl⟩
    obtain ⟨d, hd, hname⟩ := List.mem_map.mp (h.names_perm.subset (List.mem_map_of_mem hc))
    exact ⟨d, ⟨hd, (hkeys c hc d hd hname.symm).symm.trans hkey⟩, hname⟩
  · rintro ⟨d, ⟨hd, hkey⟩, rfl⟩
    obtain ⟨c, hc, hname⟩ := List.mem_map.mp (h.names_perm.symm.subset (List.mem_map_of_mem hd))
    exact ⟨c, ⟨hc, (hkeys c hc d hd hname).trans hkey⟩, hname⟩

theorem CompatibleByName.keyColumns (h : CompatibleByName config expected actual) :
    CompatibleByName config (keyColumns expected) (keyColumns actual) := by
  intro c hc d hd
  exact h c (mem_keyColumns.mp hc).1 d (mem_keyColumns.mp hd).1

/-- If all columns match by name, the key columns do when the same names are keys. -/
theorem columnsMatch_keyColumns_eq_ok_true_iff (hmode : config.columnMode = .byName)
    (h : columnsMatch config expected actual = .ok true) :
    columnsMatch config (keyColumns expected) (keyColumns actual) = .ok true ↔
      SameKeyNames config.nameCase expected actual := by
  rw [columnsMatch, hmode] at h ⊢
  obtain ⟨hnames, htypes⟩ := columnsMatchByName_eq_ok_true_iff.mp h
  dsimp only
  rw [columnsMatchByName_eq_ok_true_iff, sameNames_keyColumns_iff hnames]
  exact and_iff_left htypes.keyColumns

theorem keyColumnsMatch_byName_eq_ok_true_iff (hmode : config.columnMode = .byName) :
    keyColumnsMatch config expected actual = .ok true ↔
      columnsMatch config expected actual = .ok true ∧
        SameKeyNames config.nameCase expected actual := by
  rw [keyColumnsMatch_eq_ok_true_iff]
  constructor
  · rintro ⟨_, hkeys, hall⟩
    exact ⟨hall, (columnsMatch_keyColumns_eq_ok_true_iff hmode hall).mp hkeys⟩
  · rintro ⟨hall, hkeys⟩
    refine ⟨?_, (columnsMatch_keyColumns_eq_ok_true_iff hmode hall).mpr hkeys, hall⟩
    rw [columnsMatch, hmode] at hall
    obtain ⟨hexpected, hactual⟩ := (sameNames_of_columnsMatchByName hall).distinctNames
    rw [checkNames, hmode]
    dsimp only
    rw [hexpected.columnsByName_eq_ok, hactual.columnsByName_eq_ok]
    rfl

/-- If the same names are keys, the key columns match when all columns do. -/
theorem keyColumnsMatch_of_sameKeys (hmode : config.columnMode = .byName)
    (h : columnsMatch config expected actual = .ok true)
    (hkeys : SameKeys config.nameCase expected actual) :
    keyColumnsMatch config expected actual = .ok true := by
  have hbyName : columnsMatchByName config expected actual = .ok true := by
    rwa [columnsMatch, hmode] at h
  exact (keyColumnsMatch_byName_eq_ok_true_iff hmode).mpr
    ⟨h, (sameNames_of_columnsMatchByName hbyName).sameKeyNames hkeys⟩

end

end TableDiff
