import TableDiff.Proofs.AnyOrder.Symmetric
import TableDiff.Proofs.Columns.Faults

/-!
# Columns compared from either side

Whether columns match does not depend on which table is the expected one, and the partners of the
columns are the same from either side.  Neither then does the comparison of two rows without
predicates.
-/

namespace TableDiff

theorem DataType.compatible_comm (a b : DataType) (mode : ConversionMode) :
    a.compatible b mode = b.compatible a mode := by
  rw [Bool.eq_iff_iff]
  simp only [compatible, Bool.or_eq_true, Bool.and_eq_true, beq_iff_eq]
  rw [@eq_comm _ a b]
  tauto

section

variable {config : Config} {nameCase : NameCase} {expected actual : List Column}

theorem SameNames.symm (h : SameNames nameCase expected actual) :
    SameNames nameCase actual expected where
  named := by
    intro c hc
    exact h.named c (List.perm_append_comm.mem_iff.mp hc)
  names_perm := h.names_perm.symm
  nodup := h.names_perm.nodup_iff.mpr h.nodup

theorem columnsMatch_eq_ok_true_swap (h : columnsMatch config expected actual = .ok true) :
    columnsMatch config actual expected = .ok true := by
  unfold columnsMatch at h ⊢
  cases hmode : config.columnMode with
  | positional =>
      rw [hmode] at h
      have htypes := columnsMatchByPosition_eq_true_iff.mp (Except.ok.inj h)
      apply congrArg Except.ok
      rw [columnsMatchByPosition_eq_true_iff]
      apply htypes.flip.imp
      intro c d hdc
      rw [DataType.compatible_comm]
      exact hdc
  | byName =>
      rw [hmode] at h
      obtain ⟨hnames, htypes⟩ := columnsMatchByName_eq_ok_true_iff.mp h
      rw [columnsMatchByName_eq_ok_true_iff]
      refine ⟨hnames.symm, ?_⟩
      intro c hc d hd hname
      rw [DataType.compatible_comm]
      exact htypes d hd c hc hname.symm

theorem checkNames_swap (h : checkNames config expected actual = .ok ()) :
    checkNames config actual expected = .ok () := by
  rw [checkNames_eq_ok_iff] at h ⊢
  intro hmode
  exact (h hmode).symm

theorem keyColumnsMatch_eq_ok_true_swap (h : keyColumnsMatch config expected actual = .ok true) :
    keyColumnsMatch config actual expected = .ok true := by
  rw [keyColumnsMatch_eq_ok_true_iff] at h ⊢
  exact ⟨checkNames_swap h.1, columnsMatch_eq_ok_true_swap h.2.1,
    columnsMatch_eq_ok_true_swap h.2.2⟩

end

/-- The comparison with its two tables exchanged. -/
def Comparison.swap (c : Comparison) : Comparison := ⟨c.config, c.actual, c.expected⟩

namespace Comparison

variable {c : Comparison}

theorem columnsMatch_eq_ok_true_swap (h : c.columnsMatch = .ok true) :
    c.swap.columnsMatch = .ok true := by
  by_cases hrows : c.config.rowMode = .byKey
  · rw [columnsMatch_of_byKey hrows] at h
    rw [columnsMatch_of_byKey (c := c.swap) hrows]
    exact keyColumnsMatch_eq_ok_true_swap h
  · rw [columnsMatch_of_ne_byKey hrows] at h
    rw [columnsMatch_of_ne_byKey (c := c.swap) hrows]
    exact TableDiff.columnsMatch_eq_ok_true_swap h

theorem exists_columnsMatch_eq_ok_iff :
    (∃ b, c.columnsMatch = .ok b) ↔
      checkNames c.config c.expected.columns c.actual.columns = .ok () := by
  have herror := @columnsMatch_eq_error_iff c
  cases hcheck : checkNames c.config c.expected.columns c.actual.columns with
  | ok _ =>
      constructor
      · intro _
        rfl
      · intro _
        apply exists_eq_ok_of_ne_error
        intro fault hfault
        cases hcheck.symm.trans (herror.mp hfault)
  | error fault =>
      rw [herror.mpr hcheck]
      simp

/-- Columns that are not refused have one verdict from either side. -/
theorem columnsMatch_swap {b : Bool} (h : c.columnsMatch = .ok b) :
    c.swap.columnsMatch = .ok b := by
  have hcheck := checkNames_swap (exists_columnsMatch_eq_ok_iff.mp ⟨b, h⟩)
  obtain ⟨b', hb'⟩ := exists_columnsMatch_eq_ok_iff (c := c.swap).mpr hcheck
  cases b with
  | true => exact columnsMatch_eq_ok_true_swap h
  | false =>
      cases b' with
      | false => exact hb'
      | true => cases h.symm.trans (columnsMatch_eq_ok_true_swap hb')

end Comparison

/-! ## The cells that are compared -/

theorem Value.matchesCell_symm {e a : Value} {mode : ConversionMode} (he : e.isPredicate = false)
    (h : e.matchesCell a mode = .ok true) : a.matchesCell e mode = .ok true := by
  rw [matchesCell_eq_ok_true_iff] at h ⊢
  obtain ⟨v, hv, hadmits⟩ := h
  cases e with
  | predicate p => cases he
  | null =>
      cases a with
      | null => exact ⟨none, rfl, rfl⟩
      | literal k =>
          cases hv
          cases hadmits
      | predicate p => cases hv
  | literal l =>
      cases a with
      | null =>
          cases hv
          cases hadmits
      | literal k =>
          cases hv
          exact ⟨some l, rfl, Literal.equivalent_symm hadmits⟩
      | predicate p => cases hv

namespace CellMatcher

/-- Each matcher finds the partner of a cell where the other one finds the cell. -/
structure Inverse (m m' : CellMatcher) : Prop where
  positional : m.projection = .positional ↔ m'.projection = .positional
  conversion : m'.conversion = m.conversion
  actualIndex : ∀ i j, m.actualIndex? i = some j ↔ m'.actualIndex? j = some i

namespace Inverse

variable {m m' : CellMatcher} {e a : Row}

theorem rowsMatch_swap (h : m.Inverse m') (he : e.hasPredicate = false)
    (hwidth : ∀ i j, m.actualIndex? i = some j → j < a.cells.length → i < e.cells.length)
    (hmatch : m.rowsMatch e a = .ok true) : m'.rowsMatch a e = .ok true := by
  rw [rowsMatch_eq_ok_true_iff] at hmatch ⊢
  constructor
  · intro hpositional
    exact (hmatch.1 (h.positional.mpr hpositional)).symm
  intro j i cell hcell hi
  have hj := (h.actualIndex i j).mpr hi
  have hlt := hwidth i j hj (List.getElem?_eq_some_iff.mp hcell).1
  obtain ⟨partner, hpartner, hmatched⟩ := hmatch.2 i j _ (List.getElem?_eq_getElem hlt) hj
  cases hcell.symm.trans hpartner
  have hcells : ∀ cell ∈ e.cells, cell.isPredicate = false := by
    simpa [Row.hasPredicate] using he
  rw [h.conversion]
  exact ⟨_, List.getElem?_eq_getElem hlt,
    Value.matchesCell_symm (hcells _ (List.getElem_mem hlt)) hmatched⟩

end Inverse

variable {config : Config} {expected actual : List Column}

theorem exists_name_eq_of_actualIndex?_byName {nameCase : NameCase} {conversion : ConversionMode}
    (hnames : SameNames nameCase expected actual) {i j : Nat}
    (h : (byName nameCase conversion expected actual).actualIndex? i = some j) :
    ∃ (hi : i < expected.length) (hj : j < actual.length),
      expected[i].normalizedName nameCase = actual[j].normalizedName nameCase := by
  have hi := lt_length_of_actualIndex?_byName h
  obtain ⟨d, hd, hname⟩ := List.mem_map.mp (hnames.names_perm.subset
    (List.mem_map_of_mem (List.getElem_mem hi)))
  obtain ⟨k, hk, rfl⟩ := List.mem_iff_getElem.mp hd
  cases h.symm.trans (actualIndex?_byName_eq hnames hi hk hname.symm)
  exact ⟨hi, hk, hname.symm⟩

theorem inverse_ofColumns (h : columnsMatch config expected actual = .ok true) :
    (ofColumns config expected actual).Inverse (ofColumns config actual expected) := by
  unfold ofColumns
  rcases columnsMatch_eq_ok_true h with ⟨hmode, _⟩ | ⟨hmode, hnames⟩
  · rw [hmode]
    refine ⟨Iff.rfl, rfl, ?_⟩
    intro i j
    simp [actualIndex?, CellMatcher.positional, eq_comm]
  · rw [hmode]
    refine ⟨by simp [byName], rfl, ?_⟩
    intro i j
    constructor
    · intro hj
      obtain ⟨hi, hj, hname⟩ := exists_name_eq_of_actualIndex?_byName hnames hj
      exact actualIndex?_byName_eq hnames.symm hj hi hname.symm
    · intro hi
      obtain ⟨hj, hi, hname⟩ := exists_name_eq_of_actualIndex?_byName hnames.symm hi
      exact actualIndex?_byName_eq hnames hi hj hname.symm

theorem lt_length_iff_of_actualIndex? (h : columnsMatch config expected actual = .ok true)
    {i j : Nat} (hj : (ofColumns config expected actual).actualIndex? i = some j) :
    i < expected.length ↔ j < actual.length := by
  unfold ofColumns at hj
  rcases columnsMatch_eq_ok_true h with ⟨hmode, hlength⟩ | ⟨hmode, hnames⟩
  · rw [hmode] at hj
    cases hj
    rw [hlength]
  · rw [hmode] at hj
    obtain ⟨hi, hj, _⟩ := exists_name_eq_of_actualIndex?_byName hnames hj
    exact iff_of_true hi hj

section

variable {s t : Table} {e a : Row}

theorem rowsMatch_ofColumns_eq_ok_true_swap
    (h : columnsMatch config s.columns t.columns = .ok true) (hs : s.Built) (ht : t.Built)
    (he : e ∈ s.rows) (ha : a ∈ t.rows) (hliteral : e.hasPredicate = false)
    (hmatch : (ofColumns config s.columns t.columns).rowsMatch e a = .ok true) :
    (ofColumns config t.columns s.columns).rowsMatch a e = .ok true := by
  have hwidth : ∀ i j, (ofColumns config s.columns t.columns).actualIndex? i = some j →
      j < a.cells.length → i < e.cells.length := by
    intro i j hj hlt
    rw [ht.length_cells ha] at hlt
    rw [hs.length_cells he]
    exact (lt_length_iff_of_actualIndex? h hj).mpr hlt
  exact (inverse_ofColumns h).rowsMatch_swap hliteral hwidth hmatch

/-- Rows without predicates are compared alike from either side. -/
theorem rowsMatch_ofColumns_swap
    (h : columnsMatch config s.columns t.columns = .ok true) (hs : s.Built) (ht : t.Built)
    (he : e ∈ s.rows) (ha : a ∈ t.rows) (hliteral : e.hasPredicate = false)
    (hliteral' : a.hasPredicate = false) :
    (ofColumns config t.columns s.columns).rowsMatch a e =
      (ofColumns config s.columns t.columns).rowsMatch e a := by
  obtain ⟨b, hb⟩ := exists_rowsMatch_eq_ok (m := ofColumns config s.columns t.columns) (e := e)
    hliteral'
  obtain ⟨b', hb'⟩ := exists_rowsMatch_eq_ok (m := ofColumns config t.columns s.columns) (e := a)
    hliteral
  have hforward : b = true → b' = true := by
    rintro rfl
    exact Except.ok.inj (hb'.symm.trans
      (rowsMatch_ofColumns_eq_ok_true_swap h hs ht he ha hliteral hb))
  have hbackward : b' = true → b = true := by
    rintro rfl
    exact Except.ok.inj (hb.symm.trans (rowsMatch_ofColumns_eq_ok_true_swap
      (columnsMatch_eq_ok_true_swap h) ht hs ha he hliteral' hb'))
  rw [hb, hb', Bool.eq_iff_iff.mpr ⟨hbackward, hforward⟩]

end

end CellMatcher

end TableDiff
