import TableDiff.Table
import TableDiff.Proofs.Fallible

/-!
# Tables that rows are pushed into

A table is built from its columns by pushing rows.  Every row of such a table has one cell per
column, and every literal has the type of its column.  Rows of two tables can be exchanged for each
other when the actual table has no predicates, and the predicates of the expected table do not tell
equivalent literals apart.
-/

namespace TableDiff

/-- A predicate that answers alike on literals that are equivalent. -/
def Predicate.Respects (p : Predicate) (mode : ConversionMode) : Prop :=
  ∀ a b : Literal, a.equivalent b mode = true → p.test (some a) = p.test (some b)

/-- A predicate that answers alike on equivalent literals in one column of two rows. -/
def Predicate.AgreesOn (p : Predicate) (mode : ConversionMode) (row row' : Row) : Prop :=
  ∀ (j : Nat) (a b : Literal),
    row.cells[j]? = some (.literal a) → row'.cells[j]? = some (.literal b) →
    a.equivalent b mode = true → p.test (some a) = p.test (some b)

theorem Predicate.Respects.agreesOn {p : Predicate} {mode : ConversionMode}
    (h : p.Respects mode) (row row' : Row) : p.AgreesOn mode row row' := by
  intro _ a b _ _ hab
  exact h a b hab

theorem Literal.dataType_ne_any (l : Literal) : l.dataType ≠ .any := by
  cases l <;> simp [dataType]

theorem Literal.exists_eq_float {l : Literal} (h : l.dataType = .float) :
    ∃ x, l = .float x := by
  cases l <;> simp [dataType] at h ⊢

theorem Literal.dataType_of_convert {v w : Literal} {type : DataType}
    (h : v.convert type = some w) (htype : type ≠ .any) : w.dataType = type := by
  unfold convert at h
  split at h
  · next hsame =>
    cases h
    exact hsame.resolve_right htype
  · cases type <;> simp at h
    all_goals
      obtain ⟨_, _, rfl⟩ := h
      rfl

namespace Column

/-- The cell has the type of the column, if it has one. -/
def Holds (c : Column) (cell : Value) : Prop := ∀ l, cell = .literal l → l.dataType = c.type

/-- A column without a type takes that of its first literal; any other column stores a literal of
its own type. -/
theorem store_literal_eq_ok {c next : Column} {index : Nat} {conversion : ConversionMode}
    {l : Literal} {stored : Value}
    (h : c.store index conversion (.literal l) = .ok (next, stored)) :
    ∃ k, stored = .literal k ∧
      ((c.type = .any ∧ next = { c with type := k.dataType }) ∨
        (next = c ∧ k.dataType = c.type)) := by
  rw [store] at h
  split at h
  · next hany =>
    cases h
    exact ⟨l, rfl, .inl ⟨hany, rfl⟩⟩
  · next hany =>
    split at h
    · next hsame =>
      cases h
      exact ⟨l, rfl, .inr ⟨rfl, hsame.symm⟩⟩
    · split at h
      · next k hk =>
        cases h
        split at hk
        · exact ⟨k, rfl, .inr ⟨rfl, Literal.dataType_of_convert hk hany⟩⟩
        · cases hk
      · cases h

/-- A cell is stored in the type of its column, and the column keeps what it holds. -/
theorem holds_of_store {c next : Column} {index : Nat} {conversion : ConversionMode}
    {cell stored : Value} (h : c.store index conversion cell = .ok (next, stored)) :
    next.Holds stored ∧ ∀ old, c.Holds old → next.Holds old := by
  cases cell with
  | null =>
      cases h
      constructor
      · intro _ hl
        cases hl
      · intro _ hold
        exact hold
  | predicate p =>
      cases h
      constructor
      · intro _ hl
        cases hl
      · intro _ hold
        exact hold
  | literal l =>
      obtain ⟨k, rfl, ⟨hany, rfl⟩ | ⟨rfl, htype⟩⟩ := store_literal_eq_ok h
      · constructor
        · intro k' hk'
          cases hk'
          rfl
        · intro old hold k' hk'
          have hnone := (hold k' hk').trans hany
          exact absurd hnone k'.dataType_ne_any
      · constructor
        · intro k' hk'
          cases hk'
          exact htype
        · intro _ hold
          exact hold

end Column

namespace Table

/-- A table made of its columns and the rows pushed into it. -/
inductive Built : Table → Prop
  | ofColumns {columns : List Column} {conversion : ConversionMode} {t : Table}
      (h : Table.ofColumns columns conversion = .ok t) : Built t
  | pushRow {t next : Table} (cells : List Value)
      (ht : Built t) (h : t.pushRow cells = .ok next) : Built next

def PredicateFree (t : Table) : Prop := ∀ row ∈ t.rows, row.hasPredicate = false

def PredicatesRespect (t : Table) (mode : ConversionMode) : Prop :=
  ∀ row ∈ t.rows, ∀ p, Value.predicate p ∈ row.cells → p.Respects mode

theorem PredicateFree.predicatesRespect {t : Table} (h : t.PredicateFree) (mode : ConversionMode) :
    t.PredicatesRespect mode := by
  intro row hrow p hp
  have hcells : ∀ cell ∈ row.cells, cell.isPredicate = false := by
    simpa [Row.hasPredicate] using h row hrow
  cases hcells _ hp

theorem getElem?_zipIdx_zip {columns : List Column} {cells : List Value} {i k : Nat} {c : Column}
    {cell : Value} :
    (columns.zip cells).zipIdx[i]? = some ((c, cell), k) ↔
      columns[i]? = some c ∧ cells[i]? = some cell ∧ k = i := by
  rw [List.getElem?_zipIdx, Option.map_eq_some_iff, Nat.zero_add]
  constructor
  · rintro ⟨_, hpair, heq⟩
    cases heq
    obtain ⟨hc, hcell⟩ := List.getElem?_zip_eq_some.mp hpair
    exact ⟨hc, hcell, rfl⟩
  · rintro ⟨hc, hcell, rfl⟩
    exact ⟨(c, cell), List.getElem?_zip_eq_some.mpr ⟨hc, hcell⟩, rfl⟩

/-- The cells of a row of the right length are put into their columns in turn. -/
theorem pushRow_of_length {t : Table} {cells : List Value} (hnonempty : cells ≠ [])
    (hlength : cells.length = t.columns.length) :
    t.pushRow cells = (((t.columns.zip cells).zipIdx).mapM fun ((c, cell), i) =>
      c.store i t.conversion cell) >>= fun stored =>
        .ok { t with columns := stored.map (·.1), rows := t.rows ++ [⟨stored.map (·.2)⟩] } := by
  rw [pushRow, if_neg hnonempty, if_neg (not_not_intro hlength)]
  rfl

theorem exists_stored_of_pushRow
    {t next : Table} {cells : List Value} (h : t.pushRow cells = .ok next) :
    cells ≠ [] ∧ cells.length = t.columns.length ∧ ∃ stored,
      (((t.columns.zip cells).zipIdx).mapM fun ((c, cell), i) => c.store i t.conversion cell) =
        .ok stored ∧
      next = { t with columns := stored.map (·.1), rows := t.rows ++ [⟨stored.map (·.2)⟩] } := by
  by_cases hnonempty : cells = []
  · cases (if_pos hnonempty : t.pushRow cells = .error .emptyRow).symm.trans h
  · by_cases hlength : cells.length = t.columns.length
    · rw [pushRow_of_length hnonempty hlength] at h
      obtain ⟨stored, hstored, hnext⟩ := bind_eq_ok_iff.mp h
      exact ⟨hnonempty, hlength, stored, hstored, (Except.ok.inj hnext).symm⟩
    · rw [pushRow, if_neg hnonempty, if_pos hlength] at h
      cases h

theorem pushRow_eq_ok
    {t next : Table} {cells : List Value} (h : t.pushRow cells = .ok next) :
    next.columns.length = t.columns.length ∧
      ∃ row, row.cells.length = t.columns.length ∧ next.rows = t.rows ++ [row] := by
  obtain ⟨_, harity, stored, hstored, rfl⟩ := exists_stored_of_pushRow h
  have hlength : stored.length = t.columns.length := by
    rw [length_of_mapM_eq_ok hstored, List.length_zipIdx, List.length_zip]
    omega
  exact ⟨by simpa using hlength, ⟨stored.map (·.2)⟩, by simpa using hlength, rfl⟩

theorem Built.length_cells
    {t : Table} (ht : t.Built) {row : Row} (hrow : row ∈ t.rows) :
    row.cells.length = t.columns.length := by
  induction ht with
  | ofColumns h =>
      unfold Table.ofColumns at h
      split at h
      · cases h
        cases hrow
      · cases h
  | pushRow cells ht h ih =>
      rcases pushRow_eq_ok h with ⟨hcolumns, pushed, hpushed, hrows⟩
      rw [hrows, List.mem_append, List.mem_singleton] at hrow
      rcases hrow with hold | rfl
      · rw [hcolumns]
        exact ih hold
      · rw [hcolumns]
        exact hpushed

/-- The cells of a pushed row are stored in their columns one by one. -/
theorem store_of_pushRow
    {t next : Table} {cells : List Value} (h : t.pushRow cells = .ok next) :
    ∃ row, next.rows = t.rows ++ [row] ∧ ∀ (j : Nat) (c : Column), next.columns[j]? = some c →
      ∃ old cell stored, t.columns[j]? = some old ∧ cells[j]? = some cell ∧
        row.cells[j]? = some stored ∧ old.store j t.conversion cell = .ok (c, stored) := by
  obtain ⟨_, _, stored, hstored, rfl⟩ := exists_stored_of_pushRow h
  refine ⟨_, rfl, ?_⟩
  intro j c hc
  rw [List.getElem?_map] at hc
  obtain ⟨⟨_, value⟩, hvalue, rfl⟩ := Option.map_eq_some_iff.mp hc
  obtain ⟨⟨⟨old, cell⟩, index⟩, hat, hstore⟩ := (getElem?_of_mapM_eq_ok hstored).mp hvalue
  obtain ⟨hcolumn, hcell, rfl⟩ := getElem?_zipIdx_zip.mp hat
  exact ⟨old, cell, value, hcolumn, hcell, by simp [hvalue], hstore⟩

/-- Every literal of a built table has the type of its column. -/
theorem Built.holds {t : Table} (ht : t.Built) {row : Row} (hrow : row ∈ t.rows)
    {j : Nat} {c : Column} {cell : Value}
    (hc : t.columns[j]? = some c) (hcell : row.cells[j]? = some cell) : c.Holds cell := by
  induction ht generalizing c with
  | ofColumns h =>
      unfold Table.ofColumns at h
      split at h
      · cases h
        cases hrow
      · cases h
  | pushRow cells _ h ih =>
      obtain ⟨pushed, hrows, hstores⟩ := store_of_pushRow h
      obtain ⟨old, _, stored, hold, _, hstored, hstore⟩ := hstores j c hc
      have hholds := Column.holds_of_store hstore
      rw [hrows, List.mem_append, List.mem_singleton] at hrow
      rcases hrow with hrow | rfl
      · exact hholds.2 cell (ih hrow hold)
      · obtain rfl : stored = cell := Option.some.inj (hstored.symm.trans hcell)
        exact hholds.1

theorem Built.of_pushRows {rows : List (List Value × Nat)} {t next : Table} (ht : t.Built)
    (h : rows.foldlM (fun (t : Table) row =>
      (t.pushRow row.1).mapError fun e => Fault.mk (some row.2) e) t = .ok next) :
    next.Built := by
  induction rows generalizing t with
  | nil =>
      cases h
      exact ht
  | cons row rows ih =>
      rw [List.foldlM_cons] at h
      rcases bind_eq_ok_iff.mp h with ⟨pushed, hpushed, hrest⟩
      have hrow := mapError_eq_ok_iff.mp hpushed
      exact ih (ht.pushRow row.1 hrow) hrest

/-- The tables that are read in are built. -/
theorem built_of_ofRows {columns : List Column} {conversion : ConversionMode}
    {rows : List (List Value)} {t : Table} (h : ofRows columns conversion rows = .ok t) :
    t.Built := by
  rcases bind_eq_ok_iff.mp h with ⟨empty, hempty, hrows⟩
  have hcolumns := mapError_eq_ok_iff.mp hempty
  exact (Built.ofColumns hcolumns).of_pushRows hrows

/-- A table is built if reading it in again gives the same table. -/
theorem built_of_reread {t : Table}
    (h : ofRows t.columns t.conversion (t.rows.map (·.cells)) = .ok t) : t.Built :=
  built_of_ofRows h

end Table

end TableDiff
