import TableDiff.Proofs.KeyGroups
import TableDiff.Proofs.Columns
import TableDiff.Proofs.Literal.Canonical

/-!
# Keys of rows that match

The key columns of two tables are read in one order: in the order of their names, or in that of
their positions.  Where the order lines up each key column with the column that its cells are
compared with, rows that match have the same key and are put in one group.  By name it always does;
by position it does if the same positions hold the keys.
-/

namespace TableDiff

namespace Table

variable {t : Table}

theorem mem_keyIndices_iff {i : Nat} :
    i ∈ t.keyIndices ↔ ∃ c, t.columns[i]? = some c ∧ c.isKey = true := by
  simp only [keyIndices, List.mem_map, List.mem_filter, Prod.exists, exists_eq_right,
    List.mk_mem_zipIdx_iff_getElem?]

theorem lt_of_mem_keyIndices {i : Nat} (h : i ∈ t.keyIndices) : i < t.columns.length := by
  obtain ⟨c, hc, _⟩ := mem_keyIndices_iff.mp h
  exact (List.getElem?_eq_some_iff.mp hc).1

theorem keyIndices_eq_of_map_isKey {s : Table}
    (h : s.columns.map (·.isKey) = t.columns.map (·.isKey)) : s.keyIndices = t.keyIndices := by
  have hflags : ∀ t : Table,
      t.keyIndices = ((t.columns.map (·.isKey)).zipIdx.filter (·.1)).map (·.2) := by
    intro t
    rw [List.zipIdx_map, List.filter_map, List.map_map]
    rfl
  rw [hflags, hflags, h]

/-- No key cell of the row is a predicate. -/
def ConcreteKey (t : Table) (row : Row) : Prop :=
  ∀ i ∈ t.keyIndices, ∀ cell, row.cells[i]? = some cell → cell.isPredicate = false

theorem PredicateFree.concreteKey (h : t.PredicateFree) : ∀ row ∈ t.rows, t.ConcreteKey row := by
  intro row hrow i _ cell hcell
  have hcells : ∀ cell ∈ row.cells, cell.isPredicate = false := by
    simpa [Row.hasPredicate] using h row hrow
  exact hcells cell (List.mem_of_getElem? hcell)

end Table

namespace RowMatch

variable {config : Config} {s t : Table}

/-! ## The order of the key columns -/

/-- The name by which a key column is put in order. -/
def keyName (config : Config) (t : Table) (i : Nat) : String :=
  (t.columns[i]?.map (·.normalizedName config.nameCase)).getD ""

theorem keyName_eq {i : Nat} (hi : i < t.columns.length) :
    keyName config t i = t.columns[i].normalizedName config.nameCase := by
  simp [keyName, hi]

theorem map_keyName_keyIndices (config : Config) (t : Table) :
    t.keyIndices.map (keyName config t) =
      (keyColumns t.columns).map (·.normalizedName config.nameCase) := by
  have hcolumns : keyColumns t.columns = (t.columns.zipIdx.filter (·.1.isKey)).map (·.1) := by
    rw [keyColumns, ← Function.comp_def Column.isKey Prod.fst, ← List.filter_map,
      List.zipIdx_map_fst]
  rw [hcolumns, Table.keyIndices, List.map_map, List.map_map]
  apply List.map_congr_left
  intro p hp
  have hget := List.mem_zipIdx_iff_getElem?.mp (List.mem_of_mem_filter hp)
  simp [keyName, hget]

theorem keyOrder_byName (hmode : config.columnMode = .byName) (t : Table) :
    keyOrder config t =
      (sortBy (compareOn (·.1)) (t.keyIndices.map fun i => (keyName config t i, i))).map
        (·.2) := by
  rw [keyOrder, hmode]
  rfl

theorem keyOrder_perm (config : Config) (t : Table) :
    (keyOrder config t).Perm t.keyIndices := by
  cases hmode : config.columnMode with
  | positional =>
      rw [keyOrder, hmode]
  | byName =>
      rw [keyOrder_byName hmode]
      have hperm := (sortBy_perm (compareOn (·.1))
        (t.keyIndices.map fun i => (keyName config t i, i))).map (·.2)
      simpa [Function.comp_def] using hperm

theorem pairwise_keyName_keyOrder (hmode : config.columnMode = .byName) (t : Table) :
    ((keyOrder config t).map (keyName config t)).Pairwise
      fun a b => (compare a b).isLE = true := by
  rw [keyOrder_byName hmode, List.map_map]
  have hsorted := pairwise_sortBy (compareOn (·.1))
    (t.keyIndices.map fun i => (keyName config t i, i))
  refine List.pairwise_map.mpr (hsorted.imp_of_mem ?_)
  intro p q hp hq hle
  rw [mem_sortBy, List.mem_map] at hp hq
  obtain ⟨i, _, rfl⟩ := hp
  obtain ⟨j, _, rfl⟩ := hq
  exact hle

theorem map_keyName_keyOrder_eq (hmode : config.columnMode = .byName)
    (hnames : SameNames config.nameCase (keyColumns s.columns) (keyColumns t.columns)) :
    (keyOrder config s).map (keyName config s) = (keyOrder config t).map (keyName config t) := by
  have hperm : ((keyOrder config s).map (keyName config s)).Perm
      ((keyOrder config t).map (keyName config t)) := by
    refine ((keyOrder_perm config s).map _).trans ?_
    refine List.Perm.trans ?_ ((keyOrder_perm config t).map _).symm
    rw [map_keyName_keyIndices, map_keyName_keyIndices]
    exact hnames.names_perm
  exact eq_of_perm_of_ascending hperm (pairwise_keyName_keyOrder hmode s)
    (pairwise_keyName_keyOrder hmode t)

/-- The tables read their keys from columns whose cells are compared with each other. -/
def KeysAligned (m : CellMatcher) (expected actual : List Nat) : Prop :=
  List.Forall₂ (fun i j => m.actualIndex? i = some j) expected actual

theorem keysAligned_keyOrder
    (hkeys : keyColumnsMatch config s.columns t.columns = .ok true)
    (hindices : config.columnMode = .positional → s.keyIndices = t.keyIndices) :
    KeysAligned (.ofColumns config s.columns t.columns)
      (keyOrder config s) (keyOrder config t) := by
  obtain ⟨_, hkeyColumns, hcolumns⟩ := keyColumnsMatch_eq_ok_true_iff.mp hkeys
  cases hmode : config.columnMode with
  | positional =>
      rw [keyOrder, keyOrder, CellMatcher.ofColumns, hmode]
      dsimp only
      rw [hindices hmode]
      apply List.forall₂_same.mpr
      intro i _
      rfl
  | byName =>
      have hnames := (columnsMatch_eq_ok_true hcolumns).resolve_left (by simp [hmode])
      have hkeyNames := (columnsMatch_eq_ok_true hkeyColumns).resolve_left (by simp [hmode])
      have hequal := map_keyName_keyOrder_eq hmode hkeyNames.2
      rw [← List.forall₂_eq_eq_eq, List.forall₂_map_left_iff,
        List.forall₂_map_right_iff] at hequal
      rw [CellMatcher.ofColumns, hmode]
      refine List.forall₂_iff_get.mpr ⟨hequal.length_eq, ?_⟩
      intro k hk hk'
      have hi := Table.lt_of_mem_keyIndices
        ((keyOrder_perm config s).mem_iff.mp (List.getElem_mem hk))
      have hj := Table.lt_of_mem_keyIndices
        ((keyOrder_perm config t).mem_iff.mp (List.getElem_mem hk'))
      have hname := hequal.get hk hk'
      simp only [List.get_eq_getElem, keyName_eq hi, keyName_eq hj] at hname
      exact actualIndex?_byName_eq hnames.2 hi hj hname

theorem lt_length_of_mem_keyOrder (hs : s.Built) {row : Row} (hrow : row ∈ s.rows) :
    ∀ i ∈ keyOrder config s, i < row.cells.length := by
  intro i hi
  rw [hs.length_cells hrow]
  exact Table.lt_of_mem_keyIndices ((keyOrder_perm config s).mem_iff.mp hi)

/-! ## The keys of two rows -/

section

variable {m : CellMatcher} {e a : Row} {mode : ConversionMode}

/-- One entry of a key. -/
def keyCell (mode : ConversionMode) (row : Row) (i : Nat) : Except TableError (Option Literal) :=
  match row.cells[i]? with
  | some cell => do return (← cell.evaluate).map (·.canonical mode)
  | none => .ok none

theorem rowKey_eq_ok_iff {columns : List Nat} {row : Row} {key : Key} :
    rowKey mode columns row = .ok key ↔
      List.Forall₂ (fun i v => keyCell mode row i = .ok v) columns key := by
  rw [rowKey]
  exact mapM_eq_ok_iff

theorem exists_keyCell_eq_ok {row : Row} {i : Nat}
    (h : ∀ cell, row.cells[i]? = some cell → cell.isPredicate = false) :
    ∃ v, keyCell mode row i = .ok v := by
  unfold keyCell
  cases hcell : row.cells[i]? with
  | none => exact ⟨none, rfl⟩
  | some cell =>
      obtain ⟨v, hv⟩ := Value.exists_evaluate_eq_ok (h cell hcell)
      exact ⟨v.map (·.canonical mode), by simp [hv, pure, Except.pure]⟩

variable (config mode) in
theorem exists_rowKey_eq_ok (h : t.ConcreteKey e) :
    ∃ key, rowKey mode (keyOrder config t) e = .ok key := by
  apply exists_mapM_eq_ok
  intro i hi
  exact exists_keyCell_eq_ok (h i ((keyOrder_perm config t).mem_iff.mp hi))

/-- A concrete cell admits a value exactly when their canonical forms are equal. -/
theorem canonical_beq_iff_admits {cell : Value} {v w : Option Literal}
    (hcell : cell.evaluate = .ok v) :
    (v.map (·.canonical mode) == w.map (·.canonical mode)) = true ↔
      cell.admits w mode = true := by
  cases cell with
  | null =>
      cases hcell
      cases w <;> simp [Value.admits]
  | literal l =>
      cases hcell
      cases w with
      | none => simp [Value.admits]
      | some k => exact Literal.canonical_beq_iff
  | predicate p => cases hcell

/-- The cells of two rows at key columns match one by one. -/
def KeyCellsMatch (mode : ConversionMode) (expected actual : List Nat) (e a : Row) : Prop :=
  List.Forall₂ (fun i j => ∃ x y, e.cells[i]? = some x ∧ a.cells[j]? = some y ∧
    x.matchesCell y mode = .ok true) expected actual

theorem keyCell_beq_iff {i j : Nat} (hi : i < e.cells.length) (hj : j < a.cells.length)
    {v w : Option Literal} (hv : keyCell mode e i = .ok v) (hw : keyCell mode a j = .ok w) :
    (v == w) = true ↔ ∃ x y, e.cells[i]? = some x ∧ a.cells[j]? = some y ∧
      x.matchesCell y mode = .ok true := by
  rw [keyCell, List.getElem?_eq_getElem hi] at hv
  rw [keyCell, List.getElem?_eq_getElem hj] at hw
  obtain ⟨expected, hexpected, hv⟩ := bind_eq_ok_iff.mp hv
  obtain ⟨actual, hactual, hw⟩ := bind_eq_ok_iff.mp hw
  cases hv
  cases hw
  have hmatches : e.cells[i].matchesCell a.cells[j] mode = .ok true ↔
      e.cells[i].admits actual mode = true := by
    simp [Value.matchesCell_eq_ok_true_iff, hactual]
  rw [canonical_beq_iff_admits hexpected, ← hmatches]
  simp [hi, hj]

theorem key_beq_iff_forall₂ {key key' : Key} :
    (key == key') = true ↔ List.Forall₂ (fun v w => (v == w) = true) key key' := by
  induction key generalizing key' with
  | nil => cases key' <;> simp
  | cons v key ih => cases key' <;> simp [ih]

/-- Two rows have one key exactly when their key cells match. -/
theorem rowKey_beq_iff {expected actual : List Nat} {key key' : Key}
    (hwidth : ∀ i ∈ expected, i < e.cells.length) (hwidth' : ∀ j ∈ actual, j < a.cells.length)
    (hkey : rowKey mode expected e = .ok key) (hkey' : rowKey mode actual a = .ok key') :
    (key == key') = true ↔ KeyCellsMatch mode expected actual e a := by
  rw [rowKey_eq_ok_iff] at hkey hkey'
  rw [key_beq_iff_forall₂, KeyCellsMatch]
  induction hkey generalizing actual key' with
  | nil => cases hkey' <;> simp
  | cons hv _ ih =>
      cases hkey' with
      | nil => simp
      | cons hw hkey' =>
          rw [List.forall_mem_cons] at hwidth hwidth'
          rw [List.forall₂_cons, List.forall₂_cons,
            keyCell_beq_iff hwidth.1 hwidth'.1 hv hw, ih hwidth.2 hwidth'.2 hkey']

theorem KeyCellsMatch.lt_length {expected actual : List Nat}
    (h : KeyCellsMatch mode expected actual e a) :
    (∀ i ∈ expected, i < e.cells.length) ∧ ∀ j ∈ actual, j < a.cells.length := by
  induction h with
  | nil => simp
  | cons hcells _ ih =>
      obtain ⟨x, y, hx, hy, _⟩ := hcells
      rw [List.forall_mem_cons, List.forall_mem_cons]
      have hi := (List.getElem?_eq_some_iff.mp hx).1
      have hj := (List.getElem?_eq_some_iff.mp hy).1
      exact ⟨⟨hi, ih.1⟩, hj, ih.2⟩

theorem keyCellsMatch_of_rowsMatch {expected actual : List Nat}
    (haligned : KeysAligned m expected actual) (hwidth : ∀ i ∈ expected, i < e.cells.length)
    (hmatch : m.rowsMatch e a = .ok true) :
    KeyCellsMatch m.conversion expected actual e a := by
  refine ((List.forall₂_and_left _ _).mpr ⟨hwidth, haligned⟩).imp ?_
  rintro i j ⟨hi, htarget⟩
  have hcell := List.getElem?_eq_getElem hi
  obtain ⟨partner, hpartner, hmatched⟩ :=
    (CellMatcher.rowsMatch_eq_ok_true_iff.mp hmatch).2 i j e.cells[i] hcell htarget
  exact ⟨e.cells[i], partner, hcell, hpartner, hmatched⟩

theorem rowKey_beq_of_rowsMatch {expected actual : List Nat} {key key' : Key}
    (haligned : KeysAligned m expected actual)
    (hwidth : ∀ i ∈ expected, i < e.cells.length)
    (hmatch : m.rowsMatch e a = .ok true)
    (hkey : rowKey m.conversion expected e = .ok key)
    (hkey' : rowKey m.conversion actual a = .ok key') :
    (key == key') = true := by
  have hcells := keyCellsMatch_of_rowsMatch haligned hwidth hmatch
  exact (rowKey_beq_iff hcells.lt_length.1 hcells.lt_length.2 hkey hkey').mpr hcells

end

/-! ## Rows that match are in one group -/

theorem keyed_beq_of_joins {m : CellMatcher} {keyed keyed' : List (Key × Entry)}
    (hs : s.Built) (haligned : KeysAligned m (keyOrder config s) (keyOrder config t))
    (hkeyed : keyedEntries config m s = .ok keyed)
    (hkeyed' : keyedEntries config m t = .ok keyed')
    {key key' : Key} {e a : Entry} (he : (key, e) ∈ keyed) (ha : (key', a) ∈ keyed')
    (hjoins : m.Joins e a) : (key == key') = true := by
  obtain ⟨hentry, hkey⟩ := (mem_keyedEntries_iff hkeyed).mp he
  obtain ⟨_, hkey'⟩ := (mem_keyedEntries_iff hkeyed').mp ha
  have hrow := Entry.row_mem_of_mem_ofTable hentry
  have hwidth : ∀ i ∈ keyOrder config s, i < e.row.cells.length :=
    lt_length_of_mem_keyOrder hs hrow
  exact rowKey_beq_of_rowsMatch haligned hwidth hjoins hkey hkey'

/-- Rows that match have equal keys and are put in one group, where columns are compared by name or
the same positions hold the keys. -/
theorem grouped_of_rowsMatch
    (hs : s.Built) (hkeys : keyColumnsMatch config s.columns t.columns = .ok true)
    (hindices : config.columnMode = .positional → s.keyIndices = t.keyIndices)
    {i j : Nat} {e a : Row} (he : s.rows[i]? = some e) (ha : t.rows[j]? = some a)
    (hconcrete : s.ConcreteKey e) (hconcrete' : t.ConcreteKey a)
    (hmatch : (CellMatcher.ofColumns config s.columns t.columns).rowsMatch e a = .ok true) :
    ∃ key key', rowKey config.conversion (keyOrder config s) e = .ok key ∧
      rowKey config.conversion (keyOrder config t) a = .ok key' ∧ (key == key') = true ∧
      ∀ keyed keyed',
        keyedEntries config (.ofColumns config s.columns t.columns) s = .ok keyed →
        keyedEntries config (.ofColumns config s.columns t.columns) t = .ok keyed' →
        ∃ g ∈ keyGroups keyed keyed', ⟨i, i, e⟩ ∈ g.expected ∧ ⟨j, j, a⟩ ∈ g.actual := by
  have haligned := keysAligned_keyOrder hkeys hindices
  rw [← conversion_ofColumns config s.columns t.columns]
  generalize CellMatcher.ofColumns config s.columns t.columns = m at *
  obtain ⟨key, hkey⟩ := exists_rowKey_eq_ok config m.conversion hconcrete
  obtain ⟨key', hkey'⟩ := exists_rowKey_eq_ok config m.conversion hconcrete'
  have hwidth : ∀ i ∈ keyOrder config s, i < e.cells.length :=
    lt_length_of_mem_keyOrder hs (List.mem_of_getElem? he)
  have hbeq := rowKey_beq_of_rowsMatch haligned hwidth hmatch hkey hkey'
  refine ⟨key, key', hkey, hkey', hbeq, ?_⟩
  intro keyed keyed' hkeyed hkeyed'
  have hentry : (key, ⟨i, i, e⟩) ∈ keyed :=
    (mem_keyedEntries_iff hkeyed).mpr ⟨Entry.mem_ofTable he, hkey⟩
  have hentry' : (key', ⟨j, j, a⟩) ∈ keyed' :=
    (mem_keyedEntries_iff hkeyed').mpr ⟨Entry.mem_ofTable ha, hkey'⟩
  exact exists_mem_keyGroups_of_beq hentry hentry' hbeq

end RowMatch

def Row.threeAny : Row := ⟨[.literal (.integer 3), .predicate ⟨"any", Option.isSome⟩]⟩

def Row.lateThree : Row :=
  ⟨[.literal (.string "late"), .literal (.decimal ⟨false, 300, 2, by decide, by decide⟩)]⟩

namespace Table

def idNote : Table where
  columns := [⟨some "id", .integer, true⟩, ⟨some "note", .string, false⟩]
  rows := [.threeAny]
  conversion := .strict

/-- The columns of `idNote` the other way round, with a decimal number. -/
def noteId : Table where
  columns := [⟨some "note", .string, false⟩, ⟨some "id", .decimal, true⟩]
  rows := [.lateThree]
  conversion := .strict

theorem built_idNote : idNote.Built := built_of_reread rfl

theorem built_noteId : noteId.Built := built_of_reread rfl

theorem concreteKey_threeAny : idNote.ConcreteKey .threeAny := by
  simp [ConcreteKey, keyIndices, idNote, Row.threeAny, Value.isPredicate]

theorem concreteKey_lateThree : noteId.ConcreteKey .lateThree := by
  simp [ConcreteKey, keyIndices, noteId, Row.lateThree, Value.isPredicate]

end Table

namespace RowMatch

/-- Columns and keys go by name, and numbers match across types. -/
def byNameRelaxed : Config where
  columnMode := .byName
  rowMode := .byKey
  conversion := .relaxed

theorem keyColumnsMatch_idNote :
    keyColumnsMatch byNameRelaxed Table.idNote.columns Table.noteId.columns = .ok true := by
  have hlt : compare "id" "note" = .lt := by decide
  have hgt : compare "note" "id" = .gt := by decide
  have hnone : ([] : List String).eraseReps = [] := rfl
  have hexpected : columnsByName byNameRelaxed .expected Table.idNote.columns =
      .ok [("id", .integer), ("note", .string)] := by
    simp [columnsByName, byNameRelaxed, Table.idNote, NameCase.normalize, sortBy, List.mergeSort,
      List.MergeSort.Internal.splitInTwo, compareOn, hlt, repeated, hnone, pure, Except.pure]
  have hactual : columnsByName byNameRelaxed .actual Table.noteId.columns =
      .ok [("id", .decimal), ("note", .string)] := by
    simp [columnsByName, byNameRelaxed, Table.noteId, NameCase.normalize, sortBy, List.mergeSort,
      List.MergeSort.Internal.splitInTwo, compareOn, hgt, repeated, hnone, pure, Except.pure]
  have hkey : columnsByName byNameRelaxed .expected (keyColumns Table.idNote.columns) =
      .ok [("id", .integer)] := by
    simp [columnsByName, keyColumns, byNameRelaxed, Table.idNote, NameCase.normalize, sortBy,
      repeated, hnone, pure, Except.pure]
  have hkey' : columnsByName byNameRelaxed .actual (keyColumns Table.noteId.columns) =
      .ok [("id", .decimal)] := by
    simp [columnsByName, keyColumns, byNameRelaxed, Table.noteId, NameCase.normalize, sortBy,
      repeated, hnone, pure, Except.pure]
  have hmode : byNameRelaxed.columnMode = .byName := rfl
  simp only [keyColumnsMatch, checkNames, columnsMatch, columnsMatchByName, hmode, hexpected,
    hactual, hkey, hkey', ok_bind]
  decide

theorem grouped_of_rowsMatch_idNote :
    ∃ key key', rowKey .relaxed (keyOrder byNameRelaxed .idNote) .threeAny = .ok key ∧
      rowKey .relaxed (keyOrder byNameRelaxed .noteId) .lateThree = .ok key' ∧
      (key == key') = true ∧
      ∀ keyed keyed',
        keyedEntries byNameRelaxed
          (.ofColumns byNameRelaxed Table.idNote.columns Table.noteId.columns)
          .idNote = .ok keyed →
        keyedEntries byNameRelaxed
          (.ofColumns byNameRelaxed Table.idNote.columns Table.noteId.columns)
          .noteId = .ok keyed' →
        ∃ g ∈ keyGroups keyed keyed',
          ⟨0, 0, .threeAny⟩ ∈ g.expected ∧ ⟨0, 0, .lateThree⟩ ∈ g.actual := by
  have hmatch : (CellMatcher.ofColumns byNameRelaxed Table.idNote.columns
      Table.noteId.columns).rowsMatch .threeAny .lateThree = .ok true := by
    cbv
  have hindices : byNameRelaxed.columnMode = .positional →
      Table.idNote.keyIndices = Table.noteId.keyIndices := by
    intro hmode
    cases hmode
  exact grouped_of_rowsMatch Table.built_idNote keyColumnsMatch_idNote hindices rfl rfl
    Table.concreteKey_threeAny Table.concreteKey_lateThree hmatch

end RowMatch

/-! ## Keys at different positions -/

def Row.oneTwo : Row := ⟨[.literal (.integer 1), .literal (.integer 2)]⟩

namespace Table

def keyFirst : Table where
  columns := [⟨none, .integer, true⟩, ⟨none, .integer, false⟩]
  rows := [.oneTwo]
  conversion := .strict

/-- The row of `keyFirst` with the second number as its key. -/
def keySecond : Table where
  columns := [⟨none, .integer, false⟩, ⟨none, .integer, true⟩]
  rows := [.oneTwo]
  conversion := .strict

theorem built_keyFirst : keyFirst.Built := built_of_reread rfl

theorem built_keySecond : keySecond.Built := built_of_reread rfl

theorem concreteKey_oneTwo (t : Table) : t.ConcreteKey .oneTwo := by
  intro i _ cell hcell
  have hmem := List.mem_of_getElem? hcell
  simp only [Row.oneTwo, List.mem_cons, List.not_mem_nil, or_false] at hmem
  rcases hmem with rfl | rfl <;> rfl

end Table

namespace RowMatch

/-- By position, equal rows have different keys if the keys are at different positions. -/
theorem split_of_keyIndices_ne :
    Table.keyFirst.Built ∧ Table.keySecond.Built ∧
      keyColumnsMatch { rowMode := .byKey } Table.keyFirst.columns Table.keySecond.columns =
        .ok true ∧
      Table.keyFirst.rows[0]? = some .oneTwo ∧ Table.keySecond.rows[0]? = some .oneTwo ∧
      Table.keyFirst.ConcreteKey .oneTwo ∧ Table.keySecond.ConcreteKey .oneTwo ∧
      (CellMatcher.ofColumns { rowMode := .byKey } Table.keyFirst.columns
        Table.keySecond.columns).rowsMatch .oneTwo .oneTwo = .ok true ∧
      (∃ key key',
        rowKey .strict (keyOrder { rowMode := .byKey } .keyFirst) .oneTwo = .ok key ∧
        rowKey .strict (keyOrder { rowMode := .byKey } .keySecond) .oneTwo = .ok key' ∧
        (key == key') = false) ∧
      byKey { rowMode := .byKey } (.ofColumns { rowMode := .byKey } Table.keyFirst.columns
          Table.keySecond.columns) .keyFirst .keySecond =
        .ok ⟨false, [.expectedOnly 0, .actualOnly 0]⟩ := by
  refine ⟨Table.built_keyFirst, Table.built_keySecond, rfl, rfl, rfl,
    Table.concreteKey_oneTwo _, Table.concreteKey_oneTwo _, ?_, ?_, ?_⟩
  · cbv
  · exact ⟨[some (.integer 1)], [some (.integer 2)], rfl, rfl, rfl⟩
  · cbv

end RowMatch

end TableDiff
