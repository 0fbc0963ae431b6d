import TableDiff.Proofs.Table.Acceptance

/-!
# Strict tables whose rows come in another order

A strict table stores its cells as they are, so all that one row does to the next is to give types
to columns that have none.  Rows can be pushed one after the other exactly when they fit the
columns, which says nothing about their order: none is empty, each has one cell for every column,
and the literals of a column have one type, the declared one if there is one.
-/

namespace TableDiff

namespace Column

/-- A strict column of this type stores the cell. -/
def Takes (c : Column) (cell : Value) : Prop :=
  ∀ l, cell = .literal l → c.type = .any ∨ c.type = l.dataType

/-- The literals at `i` have the declared type or, where none is declared, one type. -/
def Suits (c : Column) (i : Nat) (rows : List (List Value)) : Prop :=
  ∃ type, (c.type = .any ∨ c.type = type) ∧
    ∀ cells ∈ rows, ∀ l, cells[i]? = some (.literal l) → l.dataType = type

variable {c next : Column} {i : Nat} {cell stored : Value}

theorem takes_iff_fits : c.Takes cell ↔ ∀ l, cell = .literal l → c.Fits .strict l := by
  simp [Takes, Fits]

theorem Keeps.eq_of_takes (h : c.Keeps cell stored) (htakes : c.Takes cell) : cell = stored := by
  cases h with
  | converted hany hother _ => exact absurd (htakes _ rfl) (not_or.mpr ⟨hany, hother⟩)
  | _ => rfl

theorem suits_nil (c : Column) (i : Nat) : c.Suits i [] := by
  refine ⟨c.type, .inr rfl, ?_⟩
  intro _ hcells
  cases hcells

/-- A column suits rows if it takes the first cell and then, with the type that it has by now, suits
the other rows. -/
theorem suits_cons_iff {cells : List Value} {rows : List (List Value)}
    (hcell : cells[i]? = some cell) :
    c.Suits i (cells :: rows) ↔ c.Takes cell ∧ (c.retype cell.dataType?).Suits i rows := by
  simp only [Suits, List.forall_mem_cons, hcell, Option.some.injEq]
  cases cell with
  | null => simp [Takes, Value.dataType?]
  | predicate p => simp [Takes, Value.dataType?]
  | literal l =>
      have hne := l.dataType_ne_any
      constructor
      · rintro ⟨type, hdeclared, hfirst, hothers⟩
        obtain rfl : l.dataType = type := hfirst l rfl
        constructor
        · intro k hk
          cases hk
          exact hdeclared
        · refine ⟨l.dataType, .inr ?_, hothers⟩
          by_cases hany : c.type = .any
          · rw [type_retype_of_any hany]
            rfl
          · rw [retype_of_ne_any hany]
            exact hdeclared.resolve_left hany
      · rintro ⟨htakes, type, htype, hothers⟩
        have hsame : (c.retype (Value.literal l).dataType?).type = l.dataType := by
          by_cases hany : c.type = .any
          · rw [type_retype_of_any hany]
            rfl
          · rw [retype_of_ne_any hany]
            exact (htakes l rfl).resolve_left hany
        obtain rfl : l.dataType = type := by
          rw [hsame] at htype
          exact htype.resolve_left hne
        refine ⟨l.dataType, htakes l rfl, ?_, hothers⟩
        intro k hk
        cases hk
        rfl

end Column

/-- What lets rows be pushed into a strict table with these columns. -/
structure RowsFit (columns : List Column) (rows : List (List Value)) : Prop where
  nonempty : ∀ cells ∈ rows, cells ≠ []
  length_eq : ∀ cells ∈ rows, cells.length = columns.length
  suits : ∀ (i : Nat) (c : Column), columns[i]? = some c → c.Suits i rows

theorem rowsFit_nil (columns : List Column) : RowsFit columns [] where
  nonempty := by
    intro _ hcells
    cases hcells
  length_eq := by
    intro _ hcells
    cases hcells
  suits := by
    intro i c _
    exact c.suits_nil i

theorem RowsFit.perm {columns : List Column} {rows rows' : List (List Value)}
    (h : RowsFit columns rows) (hperm : rows'.Perm rows) : RowsFit columns rows' where
  nonempty := by
    intro cells hcells
    exact h.nonempty cells (hperm.subset hcells)
  length_eq := by
    intro cells hcells
    exact h.length_eq cells (hperm.subset hcells)
  suits := by
    intro i c hc
    obtain ⟨type, hdeclared, hliterals⟩ := h.suits i c hc
    refine ⟨type, hdeclared, ?_⟩
    intro cells hcells
    exact hliterals cells (hperm.subset hcells)

namespace Table

/-- The table with rows added as they are, and types given by their first literals. -/
def extend (t : Table) (rows : List (List Value)) : Table where
  columns := t.columns.mapIdx fun i c => c.retype (firstType? i rows)
  rows := t.rows ++ rows.map Row.mk
  conversion := t.conversion

theorem extend_nil (t : Table) : t.extend [] = t := by
  have hcolumns : (t.columns.mapIdx fun i c => c.retype (firstType? i [])) = t.columns := by
    apply List.ext_getElem?
    intro i
    simp [firstType?]
  rw [extend, hcolumns, List.map_nil, List.append_nil]

theorem firstType?_singleton (i : Nat) (cells : List Value) :
    firstType? i [cells] = cells[i]?.bind Value.dataType? := by
  rw [firstType?_cons, show firstType? i [] = none from rfl, Option.or_none]

theorem extend_extend (t : Table) (cells : List Value) (rows : List (List Value)) :
    (t.extend [cells]).extend rows = t.extend (cells :: rows) := by
  have hretype : ∀ (i : Nat) (c : Column),
      (c.retype (firstType? i [cells])).retype (firstType? i rows) =
        c.retype (firstType? i (cells :: rows)) := by
    intro i c
    rw [firstType?_singleton, firstType?_cons]
    apply Column.retype_retype
    cases cells[i]? with
    | none => simp
    | some cell => exact cell.dataType?_ne_any
  simp only [extend, List.mapIdx_mapIdx, Function.comp_def, hretype, List.map_cons, List.map_nil,
    List.append_assoc, List.singleton_append]

section

variable {t next final : Table} {cells : List Value} {rows : List (List Value)}

/-! ## Single rows -/

theorem rowsFit_singleton_of_pushRow (hstrict : t.conversion = .strict)
    (h : t.pushRow cells = .ok next) : RowsFit t.columns [cells] := by
  obtain ⟨hnonempty, hlength, _⟩ := exists_stored_of_pushRow h
  have hnext := (pushRow_eq_ok h).1
  obtain ⟨_, _, hstores⟩ := store_of_pushRow h
  refine ⟨by simpa using hnonempty, by simpa using hlength, ?_⟩
  intro i c hc
  have hi := (List.getElem?_eq_some_iff.mp hc).1
  have hi' : i < next.columns.length := by omega
  obtain ⟨old, cell, _, hold, hcell, _, hstore⟩ := hstores i _ (List.getElem?_eq_getElem hi')
  obtain rfl : old = c := Option.some.inj (hold.symm.trans hc)
  rw [hstrict] at hstore
  exact (Column.suits_cons_iff hcell).mpr
    ⟨Column.takes_iff_fits.mpr (Column.keeps_of_store hstore).1, Column.suits_nil _ _⟩

theorem pushRow_of_rowsFit (hstrict : t.conversion = .strict) (h : RowsFit t.columns [cells]) :
    t.pushRow cells = .ok (t.extend [cells]) := by
  have hnonempty : cells ≠ [] := h.nonempty cells List.mem_cons_self
  have hlength : cells.length = t.columns.length := h.length_eq cells List.mem_cons_self
  have htakes : ∀ (i : Nat) (c : Column) (cell : Value),
      t.columns[i]? = some c → cells[i]? = some cell → c.Takes cell := by
    intro i c _ hc hcell
    exact ((Column.suits_cons_iff hcell).mp (h.suits i c hc)).1
  have hfits : ∀ i, t.FitsAt cells i := by
    intro i c l hc hl
    rw [hstrict]
    exact Column.takes_iff_fits.mp (htakes i c _ hc hl) l rfl
  obtain ⟨row, hkeeps, hpush⟩ := exists_pushRow_eq_ok hnonempty hlength hfits
  have hcells : (t.columns.zip cells).map (·.2) = row.cells := by
    rw [List.forall₂_iff_zip] at hkeeps
    rw [← List.forall₂_eq_eq_eq, List.forall₂_map_left_iff, List.forall₂_iff_zip]
    refine ⟨hkeeps.1, ?_⟩
    intro place stored hmem
    obtain ⟨i, hi⟩ := List.mem_iff_getElem?.mp (List.of_mem_zip hmem).1
    obtain ⟨hc, hcell⟩ := List.getElem?_zip_eq_some.mp hi
    exact (hkeeps.2 hmem).eq_of_takes (htakes i _ _ hc hcell)
  rw [List.map_snd_zip (by omega)] at hcells
  subst hcells
  simp only [hpush, extend, firstType?_singleton, List.map_singleton]

theorem pushRow_strict_eq_ok_iff (hstrict : t.conversion = .strict) :
    t.pushRow cells = .ok next ↔ RowsFit t.columns [cells] ∧ next = t.extend [cells] := by
  constructor
  · intro h
    have hfit := rowsFit_singleton_of_pushRow hstrict h
    exact ⟨hfit, Except.ok.inj (h.symm.trans (pushRow_of_rowsFit hstrict hfit))⟩
  · rintro ⟨hfit, rfl⟩
    exact pushRow_of_rowsFit hstrict hfit

/-! ## Rows in turn -/

theorem getElem?_columns_extend (t : Table) (rows : List (List Value)) (i : Nat) :
    (t.extend rows).columns[i]? = t.columns[i]?.map (·.retype (firstType? i rows)) :=
  List.getElem?_mapIdx

theorem length_columns_extend (t : Table) (rows : List (List Value)) :
    (t.extend rows).columns.length = t.columns.length :=
  List.length_mapIdx

/-- Rows fit if the first one does, and the others fit the columns with the types that it gives. -/
theorem rowsFit_cons_iff :
    RowsFit t.columns (cells :: rows) ↔
      RowsFit t.columns [cells] ∧ RowsFit (t.extend [cells]).columns rows := by
  have hsuits : cells.length = t.columns.length → ∀ (i : Nat) (c : Column),
      t.columns[i]? = some c → (c.Suits i (cells :: rows) ↔
        c.Suits i [cells] ∧ (c.retype (firstType? i [cells])).Suits i rows) := by
    intro hlength i c hc
    have hi := (List.getElem?_eq_some_iff.mp hc).1
    have hcell : cells[i]? = some cells[i] := List.getElem?_eq_getElem (by omega)
    rw [firstType?_singleton, Column.suits_cons_iff hcell, Column.suits_cons_iff hcell, hcell,
      Option.bind_some]
    apply and_congr_left
    intro _
    rw [and_iff_left (Column.suits_nil _ i)]
  constructor
  · intro h
    obtain ⟨hne, hnes⟩ := List.forall_mem_cons.mp h.nonempty
    obtain ⟨hlength, hlengths⟩ := List.forall_mem_cons.mp h.length_eq
    refine ⟨⟨by simpa using hne, by simpa using hlength, ?_⟩, hnes, ?_, ?_⟩
    · intro i c hc
      exact ((hsuits hlength i c hc).mp (h.suits i c hc)).1
    · rwa [length_columns_extend]
    · intro i c hc
      rw [getElem?_columns_extend] at hc
      obtain ⟨old, hold, rfl⟩ := Option.map_eq_some_iff.mp hc
      exact ((hsuits hlength i old hold).mp (h.suits i old hold)).2
  · rintro ⟨h, hrest⟩
    have hlength := h.length_eq cells List.mem_cons_self
    constructor
    · rw [List.forall_mem_cons]
      exact ⟨h.nonempty cells List.mem_cons_self, hrest.nonempty⟩
    · rw [List.forall_mem_cons, ← length_columns_extend t [cells]]
      exact ⟨hlength.trans (length_columns_extend t [cells]).symm, hrest.length_eq⟩
    · intro i c hc
      rw [hsuits hlength i c hc]
      refine ⟨h.suits i c hc, hrest.suits i _ ?_⟩
      rw [getElem?_columns_extend, hc, Option.map_some]

theorem foldlM_pushRow_strict_eq_ok_iff (hstrict : t.conversion = .strict) :
    rows.foldlM pushRow t = .ok final ↔ RowsFit t.columns rows ∧ final = t.extend rows := by
  induction rows generalizing t with
  | nil => simp [rowsFit_nil, extend_nil, pure, Except.pure, eq_comm]
  | cons cells rows ih =>
      have hnext : (t.extend [cells]).conversion = .strict := hstrict
      rw [List.foldlM_cons, bind_eq_ok_iff, rowsFit_cons_iff, ← extend_extend t cells rows]
      constructor
      · rintro ⟨next, hpush, hrest⟩
        obtain ⟨hfit, rfl⟩ := (pushRow_strict_eq_ok_iff hstrict).mp hpush
        obtain ⟨hfits, hfinal⟩ := (ih hnext).mp hrest
        exact ⟨⟨hfit, hfits⟩, hfinal⟩
      · rintro ⟨⟨hfit, hfits⟩, hfinal⟩
        exact ⟨_, pushRow_of_rowsFit hstrict hfit, (ih hnext).mpr ⟨hfits, hfinal⟩⟩

end

/-! ## Tables built from their rows -/

theorem mapError_foldlM_zipIdx_eq_ok_iff {rows : List (List Value)} {t final : Table} {n : Nat} :
    ((rows.zipIdx n).foldlM (fun t (cells, index) =>
      (pushRow t cells).mapError fun e => Fault.mk (some index) e) t) = .ok final ↔
      rows.foldlM pushRow t = .ok final := by
  induction rows generalizing t n with
  | nil => simp [pure, Except.pure]
  | cons cells rows ih =>
      rw [List.zipIdx_cons, List.foldlM_cons, List.foldlM_cons, bind_eq_ok_iff, bind_eq_ok_iff]
      simp only [mapError_eq_ok_iff, ih]

theorem ofRows_eq_ok_iff {columns : List Column} {conversion : ConversionMode}
    {rows : List (List Value)} {t : Table} :
    ofRows columns conversion rows = .ok t ↔
      ∃ start, ofColumns columns conversion = .ok start ∧ rows.foldlM pushRow start = .ok t := by
  rw [ofRows, bind_eq_ok_iff]
  simp only [mapError_eq_ok_iff, mapError_foldlM_zipIdx_eq_ok_iff]

theorem ofRows_strict_eq_ok_iff {columns : List Column} {start t : Table}
    (hvalid : ofColumns columns .strict = .ok start) {rows : List (List Value)} :
    ofRows columns .strict rows = .ok t ↔ RowsFit columns rows ∧ t = start.extend rows := by
  have hstart : start.columns = columns ∧ start.conversion = .strict := by
    unfold ofColumns at hvalid
    split at hvalid
    · cases hvalid
      exact ⟨rfl, rfl⟩
    · cases hvalid
  rw [ofRows_eq_ok_iff, ← hstart.1, ← foldlM_pushRow_strict_eq_ok_iff hstart.2, hstart.1]
  constructor
  · rintro ⟨_, hsame, h⟩
    cases hvalid.symm.trans hsame
    exact h
  · intro h
    exact ⟨start, hvalid, h⟩

/-! ## Reordered rows -/

section

variable {rows rows' : List (List Value)} {i : Nat} {type : DataType}

theorem firstType?_eq_some_iff
    (h : ∀ cells ∈ rows, ∀ l, cells[i]? = some (.literal l) → l.dataType = type)
    {found : DataType} :
    firstType? i rows = some found ↔
      ∃ cells ∈ rows, cells[i]?.bind Value.dataType? = some found := by
  have honly : ∀ cells ∈ rows, ∀ other, cells[i]?.bind Value.dataType? = some other →
      other = type := by
    intro cells hcells other hother
    obtain ⟨cell, hcell, htype⟩ := Option.bind_eq_some_iff.mp hother
    cases cell with
    | null => cases htype
    | predicate p => cases htype
    | literal l =>
        cases htype
        exact h cells hcells l hcell
  constructor
  · exact List.exists_of_findSome?_eq_some
  · rintro ⟨cells, hcells, hfound⟩
    cases hfirst : firstType? i rows with
    | none =>
        rw [List.findSome?_eq_none_iff.mp hfirst cells hcells] at hfound
        cases hfound
    | some first =>
        obtain ⟨others, hothers, hother⟩ := List.exists_of_findSome?_eq_some hfirst
        rw [honly others hothers first hother, honly cells hcells found hfound]

theorem firstType?_perm
    (h : ∀ cells ∈ rows, ∀ l, cells[i]? = some (.literal l) → l.dataType = type)
    (hperm : rows'.Perm rows) : firstType? i rows' = firstType? i rows := by
  have h' : ∀ cells ∈ rows', ∀ l, cells[i]? = some (.literal l) → l.dataType = type := by
    intro cells hcells
    exact h cells (hperm.subset hcells)
  apply Option.ext
  intro found
  rw [firstType?_eq_some_iff h, firstType?_eq_some_iff h']
  simp only [hperm.mem_iff]

theorem columns_extend_perm {t : Table} (h : RowsFit t.columns rows) (hperm : rows'.Perm rows) :
    (t.extend rows').columns = (t.extend rows).columns := by
  apply List.ext_getElem?
  intro i
  rw [getElem?_columns_extend, getElem?_columns_extend]
  cases hc : t.columns[i]? with
  | none => rfl
  | some c =>
      obtain ⟨type, _, hliterals⟩ := h.suits i c hc
      rw [firstType?_perm hliterals hperm]

end

/-- Rows can be pushed into a strict table in every order or in none.  The table has the same
columns in the end, and its rows are those that were pushed, in the order in which they were. -/
theorem ofRows_strict_perm {columns : List Column} {start : Table}
    (hvalid : ofColumns columns .strict = .ok start) {rows rows' : List (List Value)}
    (hperm : rows'.Perm rows) :
    ((∃ t, ofRows columns .strict rows = .ok t) ↔ RowsFit columns rows) ∧
      ((∃ t', ofRows columns .strict rows' = .ok t') ↔
        ∃ t, ofRows columns .strict rows = .ok t) ∧
      ∀ t t', ofRows columns .strict rows = .ok t → ofRows columns .strict rows' = .ok t' →
        t'.columns = t.columns ∧ t.rows = rows.map Row.mk ∧ t'.rows = rows'.map Row.mk := by
  obtain ⟨hcolumns, hrows⟩ := ofColumns_eq_ok hvalid
  have hfits : ∀ rows, (∃ t, ofRows columns .strict rows = .ok t) ↔ RowsFit columns rows := by
    intro rows
    simp only [ofRows_strict_eq_ok_iff hvalid, exists_and_left, exists_eq, and_true]
  refine ⟨hfits rows, ?_, ?_⟩
  · rw [hfits, hfits]
    constructor
    · intro h
      exact h.perm hperm.symm
    · intro h
      exact h.perm hperm
  · intro t t' h h'
    obtain ⟨hfit, rfl⟩ := (ofRows_strict_eq_ok_iff hvalid).mp h
    obtain ⟨_, rfl⟩ := (ofRows_strict_eq_ok_iff hvalid).mp h'
    rw [← hcolumns] at hfit
    refine ⟨columns_extend_perm hfit hperm, ?_, ?_⟩
    · rw [extend, hrows, List.nil_append]
    · rw [extend, hrows, List.nil_append]

/-- Only the last row gives a type to the first column of `anyThenKey`. -/
def textLast : List (List Value) :=
  [[.null, .literal (.integer 5)], [.predicate ⟨"any", Option.isSome⟩, .null],
    [.literal (.string "text"), .literal (.integer 7)]]

theorem ofRows_strict_perm_textLast :
    RowsFit anyThenKey.columns textLast ∧
      ∃ t t', ofRows anyThenKey.columns .strict textLast = .ok t ∧
        ofRows anyThenKey.columns .strict textLast.reverse = .ok t' ∧
        t'.columns = t.columns ∧ t.rows = textLast.map Row.mk ∧
        t'.rows = textLast.reverse.map Row.mk := by
  have hvalid : ofColumns anyThenKey.columns .strict = .ok anyThenKey := rfl
  obtain ⟨hfits, hsucceeds, hsame⟩ := ofRows_strict_perm hvalid (List.reverse_perm textLast)
  have hbuilt : ∃ t, ofRows anyThenKey.columns .strict textLast = .ok t := ⟨_, rfl⟩
  obtain ⟨t', ht'⟩ := hsucceeds.mpr hbuilt
  obtain ⟨t, ht⟩ := hbuilt
  exact ⟨hfits.mp ⟨t, ht⟩, t, t', ht, ht', hsame t t' ht ht'⟩

end Table

end TableDiff
