import TableDiff.Proofs.Table.Runs

/-!
# Which rows a table accepts

A row is accepted when it has one cell for every column and its literals fit their columns.  Whether
a literal fits is decided by its own column alone, so a type that an earlier cell of the row gives
to a column has no part in it.  What is stored are the cells as they were given, except for literals
that are converted.  A row that is rejected is rejected for one reason: it has no cells, or the
wrong number of them, or else its first cell that does not fit.
-/

namespace TableDiff

namespace Literal

variable {l k : Literal} {type : DataType}

theorem convert_eq_none_of_not_numeric (hnumeric : l.dataType.isNumeric = false)
    (hother : ¬(l.dataType = type ∨ type = .any)) : l.convert type = none := by
  unfold convert
  rw [if_neg hother]
  cases l <;> simp [dataType, DataType.isNumeric] at hnumeric <;> cases type <;> rfl

/-- Only numbers become values of another type, and only of a numeric one. -/
theorem accepts_of_convert (h : l.convert type = some k) :
    type.accepts l.dataType .relaxed = true := by
  by_cases hsame : l.dataType = type ∨ type = .any
  · rcases hsame with rfl | rfl
    · simp [DataType.accepts]
    · rfl
  · have hsource : l.dataType.isNumeric = true := by
      by_contra hnumeric
      rw [convert_eq_none_of_not_numeric (Bool.eq_false_iff.mpr hnumeric) hsame] at h
      cases h
    have htarget : type.isNumeric = true := by
      unfold convert at h
      rw [if_neg hsame] at h
      cases type <;> simp [DataType.isNumeric] at h ⊢
    simp [DataType.accepts, DataType.convertible, hsource, htarget]

end Literal

namespace Column

/-- The column has no type, or that of the literal, or it has a type that the literal is converted
into. -/
def Fits (c : Column) (conversion : ConversionMode) (l : Literal) : Prop :=
  c.type = .any ∨ c.type = l.dataType ∨ conversion = .relaxed ∧ (l.convert c.type).isSome = true

/-- What a column stores for a cell. -/
inductive Keeps (c : Column) : Value → Value → Prop
  | null : Keeps c .null .null
  | predicate (p : Predicate) : Keeps c (.predicate p) (.predicate p)
  | same {l : Literal} (h : c.type = .any ∨ c.type = l.dataType) :
      Keeps c (.literal l) (.literal l)
  | converted {l k : Literal} (hany : c.type ≠ .any) (hother : c.type ≠ l.dataType)
      (h : l.convert c.type = some k) : Keeps c (.literal l) (.literal k)

variable {c next : Column} {i : Nat} {conversion : ConversionMode} {cell stored : Value}
  {l : Literal} {e : TableError}

theorem exists_store_of_fits (h : c.Fits conversion l) (i : Nat) :
    ∃ stored, c.Keeps (.literal l) stored ∧
      c.store i conversion (.literal l) = .ok (c.retype (some l.dataType), stored) := by
  by_cases hany : c.type = .any
  · refine ⟨_, .same (.inl hany), ?_⟩
    rw [store, if_pos hany, retype, if_pos hany]
    rfl
  · rw [retype_of_ne_any hany]
    by_cases hsame : c.type = l.dataType
    · refine ⟨_, .same (.inr hsame), ?_⟩
      rw [store, if_neg hany, if_pos hsame]
    · obtain ⟨rfl, hconverts⟩ := (h.resolve_left hany).resolve_left hsame
      obtain ⟨k, hk⟩ := Option.isSome_iff_exists.mp hconverts
      refine ⟨_, .converted hany hsame hk, ?_⟩
      rw [store, if_neg hany, if_neg hsame, if_pos (Literal.accepts_of_convert hk), hk]

theorem store_of_not_fits (h : ¬c.Fits conversion l) (i : Nat) :
    c.store i conversion (.literal l) =
      .error (.typeMismatch (c.label i) c.type l.dataType) := by
  unfold Fits at h
  push Not at h
  obtain ⟨hany, hother, hconvert⟩ := h
  have htried : (if c.type.accepts l.dataType conversion then l.convert c.type else none) =
      none := by
    cases conversion with
    | strict => simp [DataType.accepts, hany, hother]
    | relaxed => rw [Option.not_isSome_iff_eq_none.mp (hconvert rfl), ite_self]
  rw [store, if_neg hany, if_neg hother, htried]

/-- A cell is stored unless it is a literal that does not fit. -/
theorem exists_store_eq_ok (h : ∀ l, cell = .literal l → c.Fits conversion l) (i : Nat) :
    ∃ stored, c.Keeps cell stored ∧
      c.store i conversion cell = .ok (c.retype cell.dataType?, stored) := by
  cases cell with
  | null => exact ⟨.null, .null, by simp [store, Value.dataType?]⟩
  | predicate p => exact ⟨.predicate p, .predicate p, by simp [store, Value.dataType?]⟩
  | literal l => exact exists_store_of_fits (h l rfl) i

/-- A cell that is stored fits, and is stored as the column keeps it. -/
theorem keeps_of_store (h : c.store i conversion cell = .ok (next, stored)) :
    (∀ l, cell = .literal l → c.Fits conversion l) ∧ c.Keeps cell stored := by
  have hfits : ∀ l, cell = .literal l → c.Fits conversion l := by
    rintro l rfl
    by_contra hmisfit
    cases (store_of_not_fits hmisfit i).symm.trans h
  obtain ⟨stored', hkeeps, hstore⟩ := exists_store_eq_ok hfits i
  cases hstore.symm.trans h
  exact ⟨hfits, hkeeps⟩

theorem store_eq_error_iff :
    c.store i conversion cell = .error e ↔
      ∃ l, cell = .literal l ∧ ¬c.Fits conversion l ∧
        e = .typeMismatch (c.label i) c.type l.dataType := by
  constructor
  · intro h
    by_cases hfits : ∀ l, cell = .literal l → c.Fits conversion l
    · obtain ⟨stored, _, hstore⟩ := exists_store_eq_ok hfits i
      cases hstore.symm.trans h
    · push Not at hfits
      obtain ⟨l, rfl, hmisfit⟩ := hfits
      exact ⟨l, rfl, hmisfit, Except.error.inj (h.symm.trans (store_of_not_fits hmisfit i))⟩
  · rintro ⟨l, rfl, hmisfit, rfl⟩
    exact store_of_not_fits hmisfit i

end Column

namespace Table

variable {t : Table} {cells : List Value} {i : Nat} {e : TableError}

/-- The cell at `i` is no literal, or one that fits. -/
def FitsAt (t : Table) (cells : List Value) (i : Nat) : Prop :=
  ∀ c l, t.columns[i]? = some c → cells[i]? = some (.literal l) → c.Fits t.conversion l

theorem pushRow_of_length_eq_error_iff (hnonempty : cells ≠ [])
    (hlength : cells.length = t.columns.length) :
    t.pushRow cells = .error e ↔
      ∃ i c l, t.columns[i]? = some c ∧ cells[i]? = some (.literal l) ∧
        ¬c.Fits t.conversion l ∧ (∀ j < i, t.FitsAt cells j) ∧
        e = .typeMismatch (c.label i) c.type l.dataType := by
  rw [pushRow_of_length hnonempty hlength, bind_eq_error_iff, mapM_eq_error_iff]
  constructor
  · rintro (⟨i, ⟨⟨c, cell⟩, k⟩, hat, hfail, hbefore⟩ | ⟨_, _, hok⟩)
    · obtain ⟨hc, hcell, rfl⟩ := getElem?_zipIdx_zip.mp hat
      obtain ⟨l, rfl, hmisfit, rfl⟩ := Column.store_eq_error_iff.mp hfail
      refine ⟨_, c, l, hc, hcell, hmisfit, ?_, rfl⟩
      intro j hj c' l' hc' hl'
      obtain ⟨_, hstore⟩ := hbefore j hj _ (getElem?_zipIdx_zip.mpr ⟨hc', hl', rfl⟩)
      exact (Column.keeps_of_store hstore).1 l' rfl
    · cases hok
  · rintro ⟨i, c, l, hc, hl, hmisfit, hbefore, rfl⟩
    refine .inl ⟨i, ((c, .literal l), i), getElem?_zipIdx_zip.mpr ⟨hc, hl, rfl⟩,
      Column.store_of_not_fits hmisfit i, ?_⟩
    rintro j hj ⟨⟨c', cell⟩, k⟩ hat
    obtain ⟨hc', hcell, rfl⟩ := getElem?_zipIdx_zip.mp hat
    have hfits : ∀ l', cell = .literal l' → c'.Fits t.conversion l' := by
      rintro l' rfl
      exact hbefore _ hj c' l' hc' hcell
    obtain ⟨_, _, hstore⟩ := Column.exists_store_eq_ok hfits _
    exact ⟨_, hstore⟩

/-- A row whose literals fit is added with each cell as its column keeps it. -/
theorem exists_pushRow_eq_ok (hnonempty : cells ≠ []) (hlength : cells.length = t.columns.length)
    (hfits : ∀ i, t.FitsAt cells i) :
    ∃ row : Row,
      List.Forall₂ (fun place stored => place.1.Keeps place.2 stored)
        (t.columns.zip cells) row.cells ∧
      t.pushRow cells = .ok
        { t with
          columns := t.columns.mapIdx fun i c => c.retype (cells[i]?.bind Value.dataType?)
          rows := t.rows ++ [row] } := by
  have haccepted : ∀ e, t.pushRow cells ≠ .error e := by
    intro e hfail
    obtain ⟨i, c, l, hc, hl, hmisfit, _⟩ :=
      (pushRow_of_length_eq_error_iff hnonempty hlength).mp hfail
    exact hmisfit (hfits i c l hc hl)
  obtain ⟨next, hpush⟩ := exists_eq_ok_of_ne_error haccepted
  obtain ⟨_, _, kept, hkept, rfl⟩ := exists_stored_of_pushRow hpush
  have hcolumns : kept.map (·.1) =
      t.columns.mapIdx fun i c => c.retype (cells[i]?.bind Value.dataType?) := by
    apply List.ext_getElem?
    intro i
    rw [List.getElem?_mapIdx, ← columns_of_pushRow hpush]
  refine ⟨⟨kept.map (·.2)⟩, ?_, hcolumns ▸ hpush⟩
  rw [List.forall₂_map_right_iff, ← List.zipIdx_map_fst 0 (t.columns.zip cells),
    List.forall₂_map_left_iff]
  apply (mapM_eq_ok_iff.mp hkept).imp
  intro _ _ hstore
  exact (Column.keeps_of_store hstore).2

/-- What becomes of a row depends on its length and then on its cells one by one. -/
theorem pushRow_cell_by_cell (t : Table) (cells : List Value) :
    (∀ e, t.pushRow cells = .error e ↔
      (cells = [] ∧ e = .emptyRow) ∨
      (cells ≠ [] ∧ cells.length ≠ t.columns.length ∧
        e = .arityMismatch t.columns.length cells.length) ∨
      (cells ≠ [] ∧ cells.length = t.columns.length ∧
        ∃ i c l, t.columns[i]? = some c ∧ cells[i]? = some (.literal l) ∧
          ¬c.Fits t.conversion l ∧ (∀ j < i, t.FitsAt cells j) ∧
          e = .typeMismatch (c.label i) c.type l.dataType)) ∧
    (cells ≠ [] → cells.length = t.columns.length → (∀ i, t.FitsAt cells i) →
      ∃ row : Row,
        List.Forall₂ (fun place stored => place.1.Keeps place.2 stored)
          (t.columns.zip cells) row.cells ∧
        t.pushRow cells = .ok
          { t with
            columns := t.columns.mapIdx fun i c => c.retype (cells[i]?.bind Value.dataType?)
            rows := t.rows ++ [row] }) := by
  refine ⟨?_, exists_pushRow_eq_ok⟩
  intro e
  by_cases hempty : cells = []
  · have hpush : t.pushRow cells = .error .emptyRow := if_pos hempty
    rw [hpush]
    simp [hempty, eq_comm]
  · by_cases hlength : cells.length = t.columns.length
    · rw [pushRow_of_length_eq_error_iff hempty hlength]
      simp [hempty, hlength]
    · have hpush : t.pushRow cells = .error (.arityMismatch t.columns.length cells.length) := by
        rw [pushRow, if_neg hempty, if_pos hlength]
      rw [hpush]
      simp [hempty, hlength, eq_comm]

def priced : Table where
  columns := [⟨some "note", .any, false⟩, ⟨some "price", .decimal, false⟩]
  rows := []
  conversion := .relaxed

/-- The first cell fits either way; a text is no price and an integer is converted into one. -/
theorem pushRow_cell_by_cell_priced :
    priced.pushRow [.literal (.boolean true), .literal (.string "5")] =
        .error (.typeMismatch "price" .decimal .string) ∧
      ∃ price, (Literal.integer 5).convert .decimal = some price ∧
        priced.pushRow [.literal (.boolean true), .literal (.integer 5)] = .ok
          { priced with
            columns := [⟨some "note", .boolean, false⟩, ⟨some "price", .decimal, false⟩]
            rows := [⟨[.literal (.boolean true), .literal price]⟩] } := by
  constructor
  · refine ((pushRow_cell_by_cell priced _).1 _).mpr (.inr (.inr ⟨by simp, rfl, 1, _, _, rfl, rfl,
      by simp [Column.Fits, Literal.convert, Literal.dataType, Literal.toDecimal?], ?_, rfl⟩))
    intro j hj c l hc _
    obtain rfl : j = 0 := by omega
    cases hc
    exact .inl rfl
  · obtain ⟨⟨cells⟩, hkeeps, hpush⟩ := (pushRow_cell_by_cell priced
      [.literal (.boolean true), .literal (.integer 5)]).2 (by simp) rfl (by
        rintro (_ | _ | i) c l hc hl
        · cases hc
          exact .inl rfl
        · cases hc
          cases hl
          exact .inr (.inr ⟨rfl, rfl⟩)
        · cases hc)
    rcases hkeeps with _ | ⟨hnote, _ | ⟨hprice, ⟨⟩⟩⟩
    cases hnote with
    | converted hany _ _ => exact absurd rfl hany
    | same _ =>
        cases hprice with
        | same h => simp [Literal.dataType] at h
        | converted _ _ hconvert => exact ⟨_, hconvert, hpush⟩

end Table

end TableDiff
