import TableDiff.Cells
import TableDiff.Proofs.Columns.Lines
import TableDiff.Proofs.Columns.Repeated
import TableDiff.Proofs.Fallible

/-!
# Columns that match

Columns that match by position are equally many.  Columns that match by name all have names, the
same on both sides and none of them twice.  In both cases every column of either side has a partner,
in the lines of the diff as well as in the comparison of cells.
-/

namespace TableDiff

/-- Ascending lists of the same names are equal. -/
theorem eq_of_perm_of_ascending {names names' : List String} (h : names.Perm names')
    (hnames : names.Pairwise fun a b => (compare a b).isLE = true)
    (hnames' : names'.Pairwise fun a b => (compare a b).isLE = true) : names = names' := by
  refine h.eq_of_pairwise ?_ hnames hnames'
  intro a b _ _ hle hge
  exact Std.LawfulEqCmp.eq_of_compare (Std.OrientedCmp.isLE_antisymm hle hge)

section

variable {config : Config} {expected actual : List Column}

theorem columnsByName_eq_ok {side : Side} {columns : List Column}
    {sorted : List (String × DataType)} (h : columnsByName config side columns = .ok sorted) :
    (∀ c ∈ columns, c.name?.isSome = true) ∧
      (sorted.map (·.1)).Perm (columns.map (·.normalizedName config.nameCase)) ∧
      (columns.map (·.normalizedName config.nameCase)).Nodup := by
  rcases bind_eq_ok_iff.mp h with ⟨named, hnamed, hrest⟩
  have hcolumns : List.Forall₂
      (fun c p => c.name?.isSome = true ∧ p.1 = c.normalizedName config.nameCase)
      columns named := by
    apply (mapM_eq_ok_iff.mp hnamed).imp
    intro c p hp
    cases hname : c.name? with
    | none =>
        rw [hname] at hp
        cases hp
    | some name =>
        rw [hname] at hp
        cases hp
        simp [Column.normalizedName, hname]
  have hnames : named.map (·.1) = columns.map (·.normalizedName config.nameCase) := by
    rw [← List.forall₂_eq_eq_eq, List.forall₂_map_left_iff, List.forall₂_map_right_iff]
    exact hcolumns.flip.imp fun _ _ hp => hp.2
  have hperm := (sortBy_perm (compareOn (·.1)) named).map (·.1)
  rw [hnames] at hperm
  have hsorted := pairwise_sortBy (compareOn (·.1)) named
  dsimp only at hrest
  split at hrest
  · next hrepeated =>
    cases hrest
    refine ⟨?_, hperm, ?_⟩
    · intro c hc
      rcases List.mem_iff_getElem?.mp hc with ⟨i, hi⟩
      have hlength := hcolumns.length_eq
      have hlt := (List.getElem?_eq_some_iff.mp hi).1
      have hboth := hcolumns.get hlt (by omega)
      rw [List.get_eq_getElem, (List.getElem?_eq_some_iff.mp hi).2] at hboth
      exact hboth.1
    · apply hperm.nodup_iff.mp
      exact (repeated_eq_nil_iff (List.pairwise_map.mpr hsorted)).mp hrepeated
  · cases hrest

/-- All columns have names, the two sides have the same, and no two columns of a side share one. -/
structure SameNames (nameCase : NameCase) (expected actual : List Column) : Prop where
  named : ∀ c ∈ expected ++ actual, c.name?.isSome = true
  names_perm : (expected.map (·.normalizedName nameCase)).Perm
    (actual.map (·.normalizedName nameCase))
  nodup : (actual.map (·.normalizedName nameCase)).Nodup

theorem sameNames_of_columnsMatchByName
    (h : columnsMatchByName config expected actual = .ok true) :
    SameNames config.nameCase expected actual := by
  rcases bind_eq_ok_iff.mp h with ⟨sorted, hsorted, h⟩
  rcases bind_eq_ok_iff.mp h with ⟨sorted', hsorted', hpure⟩
  have hexpected := columnsByName_eq_ok hsorted
  have hactual := columnsByName_eq_ok hsorted'
  have hmatched : sorted.length = sorted'.length ∧
      ∀ p ∈ sorted.zip sorted', p.1.1 = p.2.1 := by
    have htrue := Except.ok.inj hpure
    simp only [Bool.and_eq_true, beq_iff_eq, List.all_eq_true] at htrue
    refine ⟨htrue.1, ?_⟩
    intro p hp
    exact (htrue.2 p hp).1
  have hnames : sorted.map (·.1) = sorted'.map (·.1) := by
    rw [← List.forall₂_eq_eq_eq, List.forall₂_map_left_iff, List.forall₂_map_right_iff,
      List.forall₂_iff_zip]
    refine ⟨hmatched.1, ?_⟩
    intro _ _ hp
    exact hmatched.2 _ hp
  constructor
  · intro c hc
    rcases List.mem_append.mp hc with hc | hc
    · exact hexpected.1 c hc
    · exact hactual.1 c hc
  · exact hexpected.2.1.symm.trans (hnames ▸ hactual.2.1)
  · exact hactual.2.2

/-- What it takes for columns to match, beside their types. -/
theorem columnsMatch_eq_ok_true (h : columnsMatch config expected actual = .ok true) :
    (config.columnMode = .positional ∧ expected.length = actual.length) ∨
      (config.columnMode = .byName ∧ SameNames config.nameCase expected actual) := by
  unfold columnsMatch at h
  cases hmode : config.columnMode with
  | positional =>
      rw [hmode] at h
      have htrue := Except.ok.inj h
      simp only [columnsMatchByPosition, Bool.and_eq_true, beq_iff_eq] at htrue
      exact .inl ⟨rfl, htrue.1⟩
  | byName =>
      rw [hmode] at h
      exact .inr ⟨rfl, sameNames_of_columnsMatchByName h⟩

theorem keyColumnsMatch_eq_ok_true_iff :
    keyColumnsMatch config expected actual = .ok true ↔
      checkNames config expected actual = .ok () ∧
        columnsMatch config (keyColumns expected) (keyColumns actual) = .ok true ∧
        columnsMatch config expected actual = .ok true := by
  rw [keyColumnsMatch]
  constructor
  · intro h
    obtain ⟨_, hcheck, h⟩ := bind_eq_ok_iff.mp h
    obtain ⟨matched, hkeys, hrest⟩ := bind_eq_ok_iff.mp h
    cases matched with
    | true => exact ⟨hcheck, hkeys, hrest⟩
    | false => cases hrest
  · rintro ⟨hcheck, hkeys, hcolumns⟩
    rw [hcheck, ok_bind, hkeys, ok_bind, if_pos rfl, hcolumns]

theorem columnsMatch_of_keyColumnsMatch (h : keyColumnsMatch config expected actual = .ok true) :
    columnsMatch config expected actual = .ok true :=
  (keyColumnsMatch_eq_ok_true_iff.mp h).2.2

theorem columnsMatchByPosition_eq_true_iff :
    columnsMatchByPosition config expected actual = true ↔
      List.Forall₂ (fun c d => c.type.compatible d.type config.conversion = true)
        expected actual := by
  rw [columnsMatchByPosition, Bool.and_eq_true, beq_iff_eq, List.all_eq_true,
    List.forall₂_iff_zip]
  refine and_congr_right ?_
  intro _
  constructor
  · intro h c d hcd
    exact h (c, d) hcd
  · intro h p hp
    exact h hp

/-- Columns that match by position and have their keys at the same positions match as keyed
columns. -/
theorem keyColumnsMatch_of_map_isKey (hmode : config.columnMode = .positional)
    (htypes : List.Forall₂ (fun c d => c.type.compatible d.type config.conversion = true)
      expected actual)
    (hkeys : expected.map (·.isKey) = actual.map (·.isKey)) :
    keyColumnsMatch config expected actual = .ok true := by
  have hboth : List.Forall₂ (fun c d =>
      c.isKey = d.isKey ∧ c.type.compatible d.type config.conversion = true) expected actual := by
    rw [← List.forall₂_eq_eq_eq, List.forall₂_map_left_iff, List.forall₂_map_right_iff,
      List.forall₂_iff_zip] at hkeys
    rw [List.forall₂_iff_zip] at htypes ⊢
    refine ⟨hkeys.1, ?_⟩
    intro c d hcd
    exact ⟨hkeys.2 hcd, htypes.2 hcd⟩
  have hkeyTypes : List.Forall₂ (fun c d =>
      c.isKey = d.isKey ∧ c.type.compatible d.type config.conversion = true)
      (keyColumns expected) (keyColumns actual) := by
    apply List.rel_filter _ hboth
    intro _ _ hcd
    simp only [hcd.1]
  have hall := columnsMatchByPosition_eq_true_iff.mpr htypes
  have hkeyColumns := columnsMatchByPosition_eq_true_iff.mpr (hkeyTypes.imp fun _ _ hcd => hcd.2)
  rw [keyColumnsMatch_eq_ok_true_iff, checkNames, columnsMatch, columnsMatch, hmode]
  exact ⟨rfl, congrArg Except.ok hkeyColumns, congrArg Except.ok hall⟩

/-! ## The lines of the columns -/

theorem pairColumns_of_named (hmode : config.columnMode = .byName)
    (hnamed : ∀ c ∈ expected ++ actual, c.name?.isSome = true) :
    pairColumns config expected actual =
      pairNames (expected.map (·.normalizedName config.nameCase)).zipIdx
        (actual.map (·.normalizedName config.nameCase)).zipIdx := by
  rw [pairColumns, if_pos]
  exact ⟨hmode, List.all_eq_true.mpr hnamed⟩

theorem pairColumns_of_positional (hmode : config.columnMode = .positional) :
    pairColumns config expected actual = DiffLine.positional expected.length actual.length :=
  if_neg (by simp [hmode])

theorem all_isComplete_pairColumns (h : columnsMatch config expected actual = .ok true) :
    ∀ line ∈ pairColumns config expected actual, line.isComplete = true := by
  rcases columnsMatch_eq_ok_true h with ⟨hmode, hlength⟩ | ⟨hmode, hnames⟩
  · rw [pairColumns_of_positional hmode, hlength, DiffLine.positional_self]
    intro line hline
    rcases List.mem_map.mp hline with ⟨i, _, rfl⟩
    rfl
  · rw [pairColumns_of_named hmode hnames.named]
    apply (pairsByName_pairNames _ _).all_isComplete
    rw [List.zipIdx_map_fst, List.zipIdx_map_fst]
    exact hnames.names_perm

/-! ## The cells that are compared -/

theorem map_normalize_name? {c : Column} {nameCase : NameCase} (h : c.name?.isSome = true) :
    c.name?.map nameCase.normalize = some (c.normalizedName nameCase) := by
  rcases Option.isSome_iff_exists.mp h with ⟨name, hname⟩
  simp [Column.normalizedName, hname]

theorem findIdx?_name_eq {nameCase : NameCase} (hnames : SameNames nameCase expected actual)
    {j : Nat} (hj : j < actual.length) :
    (actual.map fun c => c.name?.map nameCase.normalize).findIdx?
      (· == some (actual[j].normalizedName nameCase)) = some j := by
  have hnormalized : (actual.map fun c => c.name?.map nameCase.normalize) =
      actual.map fun c => some (c.normalizedName nameCase) := by
    apply List.map_congr_left
    intro c hc
    exact map_normalize_name? (hnames.named c (List.mem_append_right _ hc))
  rw [hnormalized, List.findIdx?_eq_some_iff_getElem]
  refine ⟨by simpa using hj, by simp, ?_⟩
  intro k hk
  have hne := List.pairwise_iff_getElem.mp hnames.nodup k j (by simp; omega) (by simpa using hj) hk
  simpa using hne

/-- Columns of the same name are compared with each other. -/
theorem actualIndex?_byName_eq
    {nameCase : NameCase} {conversion : ConversionMode}
    (hnames : SameNames nameCase expected actual) {i j : Nat}
    (hi : i < expected.length) (hj : j < actual.length)
    (hname : expected[i].normalizedName nameCase = actual[j].normalizedName nameCase) :
    (CellMatcher.byName nameCase conversion expected actual).actualIndex? i = some j := by
  have hnamed := hnames.named _ (List.mem_append_left _ (List.getElem_mem hi))
  obtain ⟨name, hexpected⟩ := Option.isSome_iff_exists.mp hnamed
  have hnormalized : nameCase.normalize name = actual[j].normalizedName nameCase := by
    rw [← hname]
    simp [Column.normalizedName, hexpected]
  simp only [CellMatcher.actualIndex?, CellMatcher.byName, List.getElem?_map,
    List.getElem?_eq_getElem hi, Option.map_some, Option.join_some, hexpected,
    Option.bind_some, hnormalized]
  exact findIdx?_name_eq hnames hj

theorem lt_length_of_actualIndex?_byName {nameCase : NameCase} {conversion : ConversionMode}
    {i j : Nat}
    (h : (CellMatcher.byName nameCase conversion expected actual).actualIndex? i = some j) :
    i < expected.length := by
  have hget := (List.getElem?_eq_some_iff.mp (Option.join_eq_some_iff.mp h)).1
  rwa [List.length_map] at hget

/-- Every actual column is the partner of an expected one. -/
theorem exists_actualIndex?_eq (h : columnsMatch config expected actual = .ok true)
    {j : Nat} (hj : j < actual.length) :
    ∃ i < expected.length,
      (CellMatcher.ofColumns config expected actual).actualIndex? i = some j := by
  unfold CellMatcher.ofColumns
  rcases columnsMatch_eq_ok_true h with ⟨hmode, hlength⟩ | ⟨hmode, hnames⟩
  · rw [hmode]
    exact ⟨j, by omega, rfl⟩
  · rw [hmode]
    have hmem : actual[j].normalizedName config.nameCase ∈
        expected.map (·.normalizedName config.nameCase) :=
      hnames.names_perm.symm.subset (List.mem_map_of_mem (List.getElem_mem hj))
    rcases List.mem_map.mp hmem with ⟨c, hc, hname⟩
    rcases List.mem_iff_getElem.mp hc with ⟨i, hi, rfl⟩
    exact ⟨i, hi, actualIndex?_byName_eq hnames hi hj hname⟩

end

end TableDiff
