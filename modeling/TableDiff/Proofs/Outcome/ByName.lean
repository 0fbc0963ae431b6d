import TableDiff.Proofs.Columns.Arrangement
import TableDiff.Proofs.Outcome.RowModes
import TableDiff.Proofs.PerfectMatching.Kinds

/-!
# Comparing by name and comparing by position

Columns that match by name can be arranged so that they match by position, and this is all that
comparing by name does: the rows are compared in the same way, and so are the keys if the same
names are keys.
-/

namespace TableDiff

section

variable {m m' : CellMatcher} {s t : Table} {order : List Nat}

theorem allRowsMatch_map {f : Row → Row} {rows : List (Row × Row)}
    (h : ∀ p ∈ rows, m.rowsMatch p.1 p.2 = m'.rowsMatch p.1 (f p.2)) :
    allRowsMatch m rows = allRowsMatch m' (rows.map fun p => (p.1, f p.2)) := by
  induction rows with
  | nil => rfl
  | cons p rows ih =>
      rw [List.forall_mem_cons] at h
      rw [List.map_cons, allRowsMatch, allRowsMatch, h.1, ih h.2]

/-- Arranged rows give the same verdict in their order, or fail in the same way. -/
theorem RowMatch.ordered_arrange
    (h : ∀ e ∈ s.rows, ∀ a ∈ t.rows, m.rowsMatch e a = m'.rowsMatch e (a.arrange order)) :
    ordered m s t = ordered m' s (t.arrange order) := by
  have hrows : allRowsMatch m (s.rows.zip t.rows) =
      allRowsMatch m' (s.rows.zip (t.arrange order).rows) := by
    rw [Table.arrange, List.zip_map_right]
    apply allRowsMatch_map
    intro p hp
    obtain ⟨he, ha⟩ := List.of_mem_zip hp
    exact h p.1 he p.2 ha
  have hlength : (t.arrange order).rows.length = t.rows.length := List.length_map _
  rw [ordered, ordered, hlength, hrows]

/-- Arranged rows can be paired just as the rows themselves. -/
theorem matchable_arrange_iff
    (h : ∀ e ∈ s.rows, ∀ a ∈ t.rows, m.rowsMatch e a = m'.rowsMatch e (a.arrange order)) :
    Matchable m.Joins (Entry.ofTable s) (Entry.ofTable t) ↔
      Matchable m'.Joins (Entry.ofTable s) (Entry.ofTable (t.arrange order)) := by
  rw [matchable_joins_iff, matchable_joins_iff, Entry.map_row_ofTable, Entry.map_row_ofTable,
    Entry.map_row_ofTable, Table.arrange, matchable_map_right_iff]
  constructor
  · intro hmatchable
    apply hmatchable.imp_of_mem
    intro e he a ha hjoins
    rw [← h e he a ha]
    exact hjoins
  · intro hmatchable
    apply hmatchable.imp_of_mem
    intro e he a ha hjoins
    rw [h e he a ha]
    exact hjoins

theorem Table.PredicateFree.arrange (h : t.PredicateFree) (order : List Nat) :
    (t.arrange order).PredicateFree := by
  intro row hrow
  obtain ⟨a, ha, rfl⟩ := List.mem_map.mp hrow
  have hcells := List.any_eq_false.mp (h a ha)
  apply List.any_eq_false.mpr
  intro cell hcell
  exact hcells cell (mem_of_mem_arrange hcell)

end

namespace Comparison

variable {c : Comparison} {order : List Nat}

/-- The comparison by position, with the actual columns in the given order. -/
def arranged (c : Comparison) (order : List Nat) : Comparison where
  config := { c.config with columnMode := .positional }
  expected := c.expected
  actual := c.actual.arrange order

section

variable (hmode : c.config.columnMode = .byName)
  (hcolumns : TableDiff.columnsMatch c.config c.expected.columns c.actual.columns = .ok true)
  (horder : NameOrder c.config.nameCase c.expected.columns c.actual.columns order)

include hmode hcolumns

theorem sameNames_and_compatible :
    SameNames c.config.nameCase c.expected.columns c.actual.columns ∧
      CompatibleByName c.config c.expected.columns c.actual.columns := by
  rw [TableDiff.columnsMatch, hmode] at hcolumns
  exact columnsMatchByName_eq_ok_true_iff.mp hcolumns

include horder

theorem rowsMatch_arranged (hs : c.expected.Built) (ht : c.actual.Built) :
    ∀ e ∈ c.expected.rows, ∀ a ∈ c.actual.rows,
      c.cellMatcher.rowsMatch e a =
        (c.arranged order).cellMatcher.rowsMatch e (a.arrange order) := by
  intro e he a ha
  have hnames := (sameNames_and_compatible hmode hcolumns).1
  have hmatcher : c.cellMatcher = .byName c.config.nameCase c.config.conversion
      c.expected.columns c.actual.columns := by
    rw [cellMatcher, CellMatcher.ofColumns, hmode]
  rw [hmatcher]
  exact horder.rowsMatch_eq hnames c.config.conversion (hs.length_cells he) (ht.length_cells ha)

/-- The arranged columns match as well, and as keyed columns if the same names are keys. -/
theorem columnsMatch_arranged
    (hkeys : c.config.rowMode = .byKey →
      SameKeys c.config.nameCase c.expected.columns c.actual.columns) :
    c.columnsMatch = .ok true ∧ (c.arranged order).columnsMatch = .ok true := by
  have htypes := horder.compatible (sameNames_and_compatible hmode hcolumns).2
  by_cases hrows : c.config.rowMode = .byKey
  · rw [columnsMatch_of_byKey hrows, columnsMatch_of_byKey (c := c.arranged order) hrows]
    exact ⟨keyColumnsMatch_of_sameKeys hmode hcolumns (hkeys hrows),
      keyColumnsMatch_of_map_isKey rfl htypes (horder.map_isKey_eq (hkeys hrows))⟩
  · rw [columnsMatch_of_ne_byKey hrows, columnsMatch_of_ne_byKey (c := c.arranged order) hrows]
    exact ⟨hcolumns, congrArg Except.ok (columnsMatchByPosition_eq_true_iff.mpr htypes)⟩

/-- By name as well as by position, keys are read from columns whose cells are compared. -/
theorem keysAligned_arranged
    (hkeys : SameKeys c.config.nameCase c.expected.columns c.actual.columns) :
    RowMatch.KeysAligned c.cellMatcher (RowMatch.keyOrder c.config c.expected)
        (RowMatch.keyOrder c.config c.actual) ∧
      RowMatch.KeysAligned (c.arranged order).cellMatcher
        (RowMatch.keyOrder (c.arranged order).config c.expected)
        (RowMatch.keyOrder (c.arranged order).config (c.actual.arrange order)) := by
  have htypes := horder.compatible (sameNames_and_compatible hmode hcolumns).2
  have hflags := horder.map_isKey_eq hkeys
  constructor
  · apply RowMatch.keysAligned_keyOrder (keyColumnsMatch_of_sameKeys hmode hcolumns hkeys)
    intro hpositional
    rw [hmode] at hpositional
    cases hpositional
  · apply RowMatch.keysAligned_keyOrder (keyColumnsMatch_of_map_isKey rfl htypes hflags)
    intro _
    exact Table.keyIndices_eq_of_map_isKey hflags

/-- In row order the two comparisons have the same lines and verdict, or the same error. -/
theorem outcome_arranged_of_ordered (hs : c.expected.Built) (ht : c.actual.Built)
    (hrows : c.config.rowMode = .ordered) :
    c.outcome.map (fun o => (o.matched, o.rows)) =
      (c.arranged order).outcome.map fun o => (o.matched, o.rows) := by
  cases hvalid : c.config.validate with
  | error e =>
      rw [outcome_of_validate_eq_error hvalid,
        outcome_of_validate_eq_error (c := c.arranged order) hvalid]
  | ok _ =>
      have hkeys : c.config.rowMode = .byKey →
          SameKeys c.config.nameCase c.expected.columns c.actual.columns := by
        intro hkey
        rw [hrows] at hkey
        cases hkey
      obtain ⟨hmatch, hmatch'⟩ := columnsMatch_arranged hmode hcolumns horder hkeys
      have hordered : matchRows c.config c.cellMatcher c.expected c.actual =
          matchRows (c.arranged order).config (c.arranged order).cellMatcher
            (c.arranged order).expected (c.arranged order).actual := by
        have hrows' : (c.arranged order).config.rowMode = .ordered := hrows
        rw [matchRows, matchRows, hrows, hrows']
        exact RowMatch.ordered_arrange (rowsMatch_arranged hmode hcolumns horder hs ht)
      rw [outcome_of_columnsMatch hvalid hmatch,
        outcome_of_columnsMatch (c := c.arranged order) hvalid hmatch', hordered]
      cases matchRows (c.arranged order).config (c.arranged order).cellMatcher
          (c.arranged order).expected (c.arranged order).actual with
      | error e => rfl
      | ok r => rfl

/-- In any order and by key the two comparisons have the same verdict within their limits. -/
theorem isMatch_arranged_of_unordered (hs : c.expected.Built) (ht : c.actual.Built)
    (hfree : c.actual.PredicateFree)
    (hrows : c.config.rowMode = .anyOrder ∨ c.config.rowMode = .byKey)
    (hkeys : c.config.rowMode = .byKey →
      SameKeys c.config.nameCase c.expected.columns c.actual.columns ∧
        ∀ row ∈ c.expected.rows, c.expected.ConcreteKey row)
    (hrespect : c.expected.PredicatesRespect c.config.conversion)
    (hvalid : c.config.validate = .ok ())
    (hfinished : ∀ limit, c.isMatch ≠ .error (.tooManyPermutations limit))
    (hfinished' : ∀ limit, (c.arranged order).isMatch ≠ .error (.tooManyPermutations limit)) :
    ∃ b, c.isMatch = .ok b ∧ (c.arranged order).isMatch = .ok b := by
  have hsame : c.config.rowMode = .byKey →
      SameKeys c.config.nameCase c.expected.columns c.actual.columns := by
    intro hkey
    exact (hkeys hkey).1
  have hconcrete : c.config.rowMode = .byKey →
      ∀ row ∈ c.expected.rows, c.expected.ConcreteKey row := by
    intro hkey
    exact (hkeys hkey).2
  have haligned := fun hkey => keysAligned_arranged hmode hcolumns horder (hsame hkey)
  obtain ⟨hmatch, hmatch'⟩ := columnsMatch_arranged hmode hcolumns horder hsame
  obtain ⟨b, hb, hverdict⟩ := exists_isMatch_iff hvalid hrows hmatch hs hfree hconcrete
    (fun hkey => (haligned hkey).1) hrespect hfinished
  obtain ⟨b', hb', hverdict'⟩ := exists_isMatch_iff (c := c.arranged order) hvalid hrows hmatch'
    hs (hfree.arrange order) hconcrete (fun hkey => (haligned hkey).2) hrespect hfinished'
  have hequal : b = b' := by
    rw [Bool.eq_iff_iff, hverdict, hverdict',
      matchable_arrange_iff (rowsMatch_arranged hmode hcolumns horder hs ht)]
    rfl
  exact ⟨b, hb, hequal ▸ hb'⟩

end

/-- Columns that match by name can be put in the order of their names, and then comparing by name is
comparing by position. -/
theorem outcome_arranged (hmode : c.config.columnMode = .byName)
    (hs : c.expected.Built) (ht : c.actual.Built)
    (hcolumns : TableDiff.columnsMatch c.config c.expected.columns c.actual.columns = .ok true) :
    (∃ order, NameOrder c.config.nameCase c.expected.columns c.actual.columns order) ∧
      ∀ order, NameOrder c.config.nameCase c.expected.columns c.actual.columns order →
        (c.config.rowMode = .ordered →
          c.outcome.map (fun o => (o.matched, o.rows)) =
            (c.arranged order).outcome.map fun o => (o.matched, o.rows)) ∧
        (c.config.rowMode = .anyOrder ∨ c.config.rowMode = .byKey →
          c.actual.PredicateFree →
          (c.config.rowMode = .byKey →
            SameKeys c.config.nameCase c.expected.columns c.actual.columns ∧
              ∀ row ∈ c.expected.rows, c.expected.ConcreteKey row) →
          c.expected.PredicatesRespect c.config.conversion →
          (∀ limit, c.isMatch ≠ .error (.tooManyPermutations limit)) →
          (∀ limit, (c.arranged order).isMatch ≠ .error (.tooManyPermutations limit)) →
          c.isMatch = (c.arranged order).isMatch ∧
            (c.config.validate = .ok () → ∃ b, c.isMatch = .ok b)) := by
  refine ⟨exists_nameOrder (sameNames_and_compatible hmode hcolumns).1, ?_⟩
  intro order horder
  refine ⟨outcome_arranged_of_ordered hmode hcolumns horder hs ht, ?_⟩
  intro hrows hfree hkeys hrespect hfinished hfinished'
  cases hvalid : c.config.validate with
  | error e =>
      constructor
      · rw [isMatch, isMatch, outcome_of_validate_eq_error hvalid,
          outcome_of_validate_eq_error (c := c.arranged order) hvalid]
      · intro hok
        cases hok
  | ok _ =>
      obtain ⟨b, hb, hb'⟩ := isMatch_arranged_of_unordered hmode hcolumns horder hs ht hfree hrows
        hkeys hrespect hvalid hfinished hfinished'
      constructor
      · rw [hb, hb']
      · intro _
        exact ⟨b, hb⟩

end Comparison

/-! ## Notes and their numbers -/

namespace Table

theorem predicateFree_noteId : noteId.PredicateFree := by
  simp [PredicateFree, noteId, Row.lateThree, Row.hasPredicate, Value.isPredicate]

theorem predicatesRespect_idNote (mode : ConversionMode) : idNote.PredicatesRespect mode := by
  simp [PredicatesRespect, Predicate.Respects, idNote, Row.threeAny]

theorem concreteKey_idNote : ∀ row ∈ idNote.rows, idNote.ConcreteKey row :=
  List.forall_mem_singleton.mpr concreteKey_threeAny

theorem sameKeys_idNote : SameKeys .sensitive idNote.columns noteId.columns := by
  unfold SameKeys
  decide

end Table

namespace Comparison

def idNote (rowMode : RowMode) : Comparison where
  config := { RowMatch.byNameRelaxed with rowMode := rowMode }
  expected := .idNote
  actual := .noteId

theorem isMatch_idNote : (idNote .byKey).isMatch = .ok true := by
  have hrows : matchRows (idNote .byKey).config (idNote .byKey).cellMatcher .idNote .noteId =
      .ok ⟨true, [.both 0 0]⟩ := by
    cbv
  rw [isMatch_of_columnsMatch (c := idNote .byKey) rfl RowMatch.keyColumnsMatch_idNote]
  exact congrArg (Except.map _) hrows

theorem isMatch_arranged_idNote : ((idNote .byKey).arranged [1, 0]).isMatch = .ok true := by
  cbv

theorem outcome_arranged_idNote :
    (∃ order, NameOrder .sensitive Table.idNote.columns Table.noteId.columns order) ∧
      NameOrder .sensitive Table.idNote.columns Table.noteId.columns [1, 0] ∧
      (idNote .ordered).outcome.map (fun o => (o.matched, o.rows)) =
        ((idNote .ordered).arranged [1, 0]).outcome.map (fun o => (o.matched, o.rows)) ∧
      (idNote .byKey).isMatch = ((idNote .byKey).arranged [1, 0]).isMatch ∧
      ∃ b, (idNote .byKey).isMatch = .ok b := by
  have hcolumns := columnsMatch_of_keyColumnsMatch RowMatch.keyColumnsMatch_idNote
  have horder : NameOrder .sensitive Table.idNote.columns Table.noteId.columns [1, 0] :=
    ⟨by decide, by decide⟩
  obtain ⟨hexists, hordered⟩ := outcome_arranged (c := idNote .ordered) rfl Table.built_idNote
    Table.built_noteId hcolumns
  obtain ⟨_, hbyKey⟩ := outcome_arranged (c := idNote .byKey) rfl Table.built_idNote
    Table.built_noteId hcolumns
  obtain ⟨hequal, hverdict⟩ := (hbyKey [1, 0] horder).2 (.inr rfl) Table.predicateFree_noteId
    (fun _ => ⟨Table.sameKeys_idNote, Table.concreteKey_idNote⟩)
    (Table.predicatesRespect_idNote _) (by simp [isMatch_idNote])
    (by simp [isMatch_arranged_idNote])
  exact ⟨hexists, horder, (hordered [1, 0] horder).1 rfl, hequal, hverdict rfl⟩

end Comparison

end TableDiff
