import TableDiff.Proofs.Columns.Names
import TableDiff.Proofs.Outcome.RowOrder

/-!
# Strict and relaxed comparison

What matches under strict conversion matches under relaxed conversion.  For two columns, two cells
and two rows in their order this is immediate.  In any order the relaxed comparison may choose other
pairs, and by key it compares other groups, because literals that differ may have one relaxed key.
But every pairing of the strict comparison still is a pairing of rows that match and have one key,
and where there is such a pairing, the comparison finds one.
-/

namespace TableDiff

theorem DataType.compatible_relaxed_of_strict {a b : DataType}
    (h : a.compatible b .strict = true) : a.compatible b .relaxed = true := by
  simp only [compatible, Bool.or_eq_true, Bool.and_eq_true] at h ⊢
  rcases h with hstrict | ⟨hrelaxed, _⟩
  · exact .inl hstrict
  · cases hrelaxed

theorem Value.matchesCell_relaxed_of_strict {expected actual : Value}
    (h : expected.matchesCell actual .strict = .ok true) :
    expected.matchesCell actual .relaxed = .ok true := by
  rw [matchesCell_eq_ok_true_iff] at h ⊢
  obtain ⟨v, hv, hadmits⟩ := h
  refine ⟨v, hv, ?_⟩
  cases expected with
  | null => exact hadmits
  | predicate p => exact hadmits
  | literal l =>
      cases v with
      | none => cases hadmits
      | some a => exact Literal.equivalent_relaxed_of_strict hadmits

/-- The configuration with another conversion mode. -/
def Config.under (config : Config) (mode : ConversionMode) : Config :=
  { config with conversion := mode }

section

variable {config : Config} {expected actual : List Column}

theorem columnsMatch_relaxed_of_strict
    (h : columnsMatch (config.under .strict) expected actual = .ok true) :
    columnsMatch (config.under .relaxed) expected actual = .ok true := by
  unfold columnsMatch at h ⊢
  have hmodes : ∀ mode, (config.under mode).columnMode = config.columnMode := by
    intro _
    rfl
  rw [hmodes] at h ⊢
  cases hmode : config.columnMode with
  | positional =>
      rw [hmode] at h
      have htypes := columnsMatchByPosition_eq_true_iff.mp (Except.ok.inj h)
      apply congrArg Except.ok
      rw [columnsMatchByPosition_eq_true_iff]
      apply htypes.imp
      intro _ _ hcd
      exact DataType.compatible_relaxed_of_strict hcd
  | byName =>
      rw [hmode] at h
      obtain ⟨hnames, htypes⟩ := columnsMatchByName_eq_ok_true_iff.mp h
      apply columnsMatchByName_eq_ok_true_iff.mpr
      refine ⟨hnames, ?_⟩
      intro c hc d hd hname
      exact DataType.compatible_relaxed_of_strict (htypes c hc d hd hname)

theorem keyColumnsMatch_relaxed_of_strict
    (h : keyColumnsMatch (config.under .strict) expected actual = .ok true) :
    keyColumnsMatch (config.under .relaxed) expected actual = .ok true := by
  rw [keyColumnsMatch_eq_ok_true_iff] at h ⊢
  exact ⟨h.1, columnsMatch_relaxed_of_strict h.2.1, columnsMatch_relaxed_of_strict h.2.2⟩

end

namespace CellMatcher

/-- The matcher of the same columns with another conversion mode. -/
def under (m : CellMatcher) (mode : ConversionMode) : CellMatcher := { m with conversion := mode }

theorem ofColumns_under (config : Config) (mode : ConversionMode) (expected actual : List Column) :
    ofColumns (config.under mode) expected actual =
      (ofColumns config expected actual).under mode := by
  unfold ofColumns
  rw [show (config.under mode).columnMode = config.columnMode from rfl]
  cases config.columnMode with
  | positional => rfl
  | byName => rfl

variable {m : CellMatcher}

theorem rowsMatch_relaxed_of_strict {e a : Row} (h : (m.under .strict).rowsMatch e a = .ok true) :
    (m.under .relaxed).rowsMatch e a = .ok true := by
  rw [rowsMatch_eq_ok_true_iff] at h ⊢
  refine ⟨h.1, ?_⟩
  intro i j cell hcell hj
  obtain ⟨partner, hpartner, hmatched⟩ := h.2 i j cell hcell hj
  exact ⟨partner, hpartner, Value.matchesCell_relaxed_of_strict hmatched⟩

end CellMatcher

namespace RowMatch

/-! ## Keys -/

/-- The key of a row under relaxed conversion, from its strict key. -/
def relaxKey (key : Key) : Key := key.map (Option.map (Literal.canonical · .relaxed))

theorem relaxKey_beq {key key' : Key} (h : (key == key') = true) :
    (relaxKey key == relaxKey key') = true := by
  induction key generalizing key' with
  | nil =>
      cases key' with
      | nil => rfl
      | cons v key' => cases h
  | cons u key ih =>
      cases key' with
      | nil => cases h
      | cons v key' =>
          simp only [List.cons_beq_cons, Bool.and_eq_true] at h
          simp only [relaxKey, List.map_cons, List.cons_beq_cons, Bool.and_eq_true]
          refine ⟨?_, ih h.2⟩
          cases u with
          | none =>
              cases v with
              | none => rfl
              | some b => cases h.1
          | some a =>
              cases v with
              | none => cases h.1
              | some b =>
                  have hequal := Literal.equivalent_strict_iff.mpr h.1
                  exact Literal.canonical_beq_iff.mpr (Literal.equivalent_relaxed_of_strict hequal)

theorem keyCell_relaxed_of_strict {row : Row} {i : Nat} {v : Option Literal}
    (h : keyCell .strict row i = .ok v) :
    keyCell .relaxed row i = .ok (v.map (Literal.canonical · .relaxed)) := by
  unfold keyCell at h ⊢
  cases hcell : row.cells[i]? with
  | none =>
      rw [hcell] at h
      cases h
      rfl
  | some cell =>
      rw [hcell] at h
      obtain ⟨w, hw, hpure⟩ := bind_eq_ok_iff.mp h
      cases hpure
      dsimp only
      rw [hw]
      cases w with
      | none => rfl
      | some l => rfl

theorem rowKey_relaxed_of_strict {columns : List Nat} {row : Row} {key : Key}
    (h : rowKey .strict columns row = .ok key) :
    rowKey .relaxed columns row = .ok (relaxKey key) := by
  rw [rowKey_eq_ok_iff] at h ⊢
  rw [relaxKey, List.forall₂_map_right_iff]
  exact h.imp fun _ _ hcell => keyCell_relaxed_of_strict hcell

section

variable {config : Config} {m : CellMatcher} {s t : Table} {keyed : List (Key × Entry)}
  {r r' : RowMatch}

theorem keyedEntries_relaxed_of_strict
    (h : keyedEntries (config.under .strict) (m.under .strict) t = .ok keyed) :
    keyedEntries (config.under .relaxed) (m.under .relaxed) t =
      .ok (keyed.map fun p => (relaxKey p.1, p.2)) := by
  unfold keyedEntries at h ⊢
  rw [mapM_eq_ok_iff] at h ⊢
  rw [List.forall₂_map_right_iff]
  refine h.imp fun e p hp => ?_
  obtain ⟨key, hkey, hpure⟩ := bind_eq_ok_iff.mp hp
  cases hpure
  have hrelaxed := rowKey_relaxed_of_strict (MatchError.lift_eq_ok_iff.mp hkey)
  exact bind_eq_ok_iff.mpr ⟨_, MatchError.lift_eq_ok_iff.mpr hrelaxed, rfl⟩

/-- Rows that are paired within their strict keys are paired within their relaxed keys. -/
theorem byKey_relaxed_of_strict (hs : s.Built) (hfree : s.PredicateFree)
    (h : byKey (config.under .strict) (m.under .strict) s t = .ok r)
    (h' : byKey (config.under .relaxed) (m.under .relaxed) s t = .ok r')
    (hmatched : r.matched = true) : r'.matched = true := by
  obtain ⟨keyed, hkeyed, hrest⟩ := bind_eq_ok_iff.mp h
  obtain ⟨keyed', hkeyed', _⟩ := bind_eq_ok_iff.mp hrest
  rw [byKey_matched_iff_keyed h hs (hfree.predicatesRespect _) hkeyed hkeyed'] at hmatched
  rw [byKey_matched_iff_keyed h' hs (hfree.predicatesRespect _)
    (keyedEntries_relaxed_of_strict hkeyed) (keyedEntries_relaxed_of_strict hkeyed'),
    matchable_map_iff]
  apply hmatched.imp
  rintro p q ⟨hkeys, hrows⟩
  exact ⟨relaxKey_beq hkeys, CellMatcher.rowsMatch_relaxed_of_strict hrows⟩

end

end RowMatch

theorem matchRows_relaxed_of_strict {config : Config} {m : CellMatcher} {s t : Table} {r : RowMatch}
    (hs : s.Built) (hfree : s.PredicateFree) (ht : t.PredicateFree)
    (h : matchRows (config.under .strict) (m.under .strict) s t = .ok r)
    (hmatched : r.matched = true) :
    ∃ r', matchRows (config.under .relaxed) (m.under .relaxed) s t = .ok r' ∧
      r'.matched = true := by
  obtain ⟨r', hr'⟩ := exists_matchRows_eq_ok_of_predicateFree (config.under .relaxed)
    (m.under .relaxed) hfree ht
  refine ⟨r', hr', ?_⟩
  unfold matchRows at h hr'
  have hmodes : ∀ mode, (config.under mode).rowMode = config.rowMode := by
    intro _
    rfl
  rw [hmodes] at h hr'
  cases hmode : config.rowMode with
  | ordered =>
      rw [hmode] at h hr'
      obtain ⟨hlength, hrows⟩ := (RowMatch.ordered_eq_ok h).2.mp hmatched
      rw [RowMatch.allRowsMatch_eq_ok_true_iff] at hrows
      refine (RowMatch.ordered_eq_ok hr').2.mpr ⟨hlength, ?_⟩
      rw [RowMatch.allRowsMatch_eq_ok_true_iff]
      intro p hp
      exact CellMatcher.rowsMatch_relaxed_of_strict (hrows p hp)
  | anyOrder =>
      rw [hmode] at h hr'
      rw [RowMatch.anyOrder_ofTable_matched_iff h hs (hfree.predicatesRespect _)] at hmatched
      rw [RowMatch.anyOrder_ofTable_matched_iff hr' hs (hfree.predicatesRespect _)]
      apply hmatched.imp
      intro _ _ hjoins
      exact CellMatcher.rowsMatch_relaxed_of_strict hjoins
  | byKey =>
      rw [hmode] at h hr'
      exact RowMatch.byKey_relaxed_of_strict hs hfree h hr' hmatched

namespace Comparison

/-- The same comparison with another conversion mode. -/
def under (c : Comparison) (mode : ConversionMode) : Comparison :=
  { c with config := { c.config with conversion := mode } }

theorem columnsMatch_relaxed_of_strict {c : Comparison}
    (h : (c.under .strict).columnsMatch = .ok true) :
    (c.under .relaxed).columnsMatch = .ok true := by
  unfold columnsMatch at h ⊢
  rw [show (c.under .strict).config.rowMode = c.config.rowMode from rfl] at h
  rw [show (c.under .relaxed).config.rowMode = c.config.rowMode from rfl]
  cases hmode : c.config.rowMode with
  | byKey =>
      rw [hmode] at h
      exact keyColumnsMatch_relaxed_of_strict h
  | ordered =>
      rw [hmode] at h
      exact TableDiff.columnsMatch_relaxed_of_strict h
  | anyOrder =>
      rw [hmode] at h
      exact TableDiff.columnsMatch_relaxed_of_strict h

/-- Tables without predicates that match under strict conversion match under relaxed conversion. -/
theorem isMatch_relaxed_of_strict {c : Comparison} (hs : c.expected.Built)
    (hfree : c.expected.PredicateFree) (ht : c.actual.PredicateFree)
    (h : (c.under .strict).isMatch = .ok true) : (c.under .relaxed).isMatch = .ok true := by
  rw [isMatch_eq_ok_true_iff_matchRows] at h ⊢
  obtain ⟨hvalid, hcolumns, r, hr, hmatched⟩ := h
  refine ⟨hvalid, columnsMatch_relaxed_of_strict hcolumns, ?_⟩
  unfold cellMatcher at hr ⊢
  rw [show (c.under .strict).config = c.config.under .strict from rfl,
    CellMatcher.ofColumns_under] at hr
  rw [show (c.under .relaxed).config = c.config.under .relaxed from rfl,
    CellMatcher.ofColumns_under]
  exact matchRows_relaxed_of_strict hs hfree ht hr hmatched

end Comparison

namespace Table

/-- Two keys that are told apart by strict conversion only. -/
def keyedNear : Table where
  columns := [⟨none, .float, true⟩, ⟨none, .integer, false⟩]
  rows := [⟨[.literal (.float .threeTenths), .literal (.integer 1)]⟩,
    ⟨[.literal (.float .aboveThreeTenths), .literal (.integer 2)]⟩]
  conversion := .strict

/-- The rows of `keyedNear` the other way round. -/
def nearKeyed : Table where
  columns := [⟨none, .float, true⟩, ⟨none, .integer, false⟩]
  rows := [⟨[.literal (.float .aboveThreeTenths), .literal (.integer 2)]⟩,
    ⟨[.literal (.float .threeTenths), .literal (.integer 1)]⟩]
  conversion := .strict

theorem built_keyedNear : keyedNear.Built := built_of_reread rfl

theorem predicateFree_keyedNear : keyedNear.PredicateFree := by
  simp [PredicateFree, keyedNear, Row.hasPredicate, Value.isPredicate]

theorem predicateFree_nearKeyed : nearKeyed.PredicateFree := by
  simp [PredicateFree, nearKeyed, Row.hasPredicate, Value.isPredicate]

end Table

namespace Comparison

theorem isMatch_relaxed_of_strict_keyedNear :
    ((groupedByKey {} .keyedNear .nearKeyed).under .strict).isMatch = .ok true ∧
      ((groupedByKey {} .keyedNear .nearKeyed).under .relaxed).isMatch = .ok true := by
  have hstrict : ((groupedByKey {} .keyedNear .nearKeyed).under .strict).isMatch = .ok true := by
    decide +kernel
  exact ⟨hstrict, isMatch_relaxed_of_strict Table.built_keyedNear Table.predicateFree_keyedNear
    Table.predicateFree_nearKeyed hstrict⟩

end Comparison

end TableDiff
