import TableDiff.Proofs.Columns.NameCheck
import TableDiff.Proofs.Columns.Symmetric

/-!
# The partners of columns

The lines of a diff pair columns in a way of their own, in any two tables whose columns have names.
For columns that match they show what is compared: the partner of a column on its line is the one
that its cells are compared with.
-/

namespace TableDiff

open DiffLine

section

variable {config : Config} {expected actual : List Column}

theorem namePairing_pairColumns (hmode : config.columnMode = .byName)
    (hnamed : ∀ c ∈ expected ++ actual, c.name?.isSome = true) :
    NamePairing (expected.map (·.normalizedName config.nameCase))
      (actual.map (·.normalizedName config.nameCase)) (pairColumns config expected actual) := by
  rw [pairColumns_of_named hmode hnamed]
  exact namePairing_pairNames _ _

/-- Columns that have names are paired by name without losing one, whether names repeat or not: as
many columns of each name as both sides have, in the order in which they stand, and no fewer in all
than by any other pairing of columns with the same names. -/
theorem pairColumns_byName (hmode : config.columnMode = .byName) (expected actual : List Column)
    (hnamed : ∀ c ∈ expected ++ actual, c.name?.isSome = true) :
    NamePairing (expected.map (·.normalizedName config.nameCase))
        (actual.map (·.normalizedName config.nameCase)) (pairColumns config expected actual) ∧
      (∀ name, (pairColumns config expected actual).countP (fun line =>
          line.sharedName? (expected.map (·.normalizedName config.nameCase))
            (actual.map (·.normalizedName config.nameCase)) == some name) =
        min ((expected.map (·.normalizedName config.nameCase)).count name)
          ((actual.map (·.normalizedName config.nameCase)).count name)) ∧
      ∀ pairs, PartialMatching (RelatedAt (fun c d => c.normalizedName config.nameCase =
            d.normalizedName config.nameCase) expected actual)
          (List.range expected.length) (List.range actual.length) pairs →
        pairs.length ≤ (pairColumns config expected actual).countP (·.isComplete) := by
  have hpairing := namePairing_pairColumns hmode hnamed
  refine ⟨hpairing, hpairing.countP_sharedName?, ?_⟩
  intro pairs hpairs
  apply hpairing.length_le
  rwa [relatedAt_map, List.length_map, List.length_map]

theorem pairColumns_byName_xyx :
    (pairColumns { columnMode := .byName } (integerColumns ["x", "y", "x"])
        (integerColumns ["z", "x", "x", "x"])).filter (fun line =>
          line.sharedName? ["x", "y", "x"] ["z", "x", "x", "x"] == some "x") =
        [both 0 1, both 2 2] ∧
      [(0, 3), (2, 1)].length ≤ (pairColumns { columnMode := .byName }
        (integerColumns ["x", "y", "x"]) (integerColumns ["z", "x", "x", "x"])).countP
          (·.isComplete) := by
  have hmode : ({ columnMode := .byName } : Config).columnMode = .byName := rfl
  obtain ⟨hpairing, _, hmaximum⟩ := pairColumns_byName hmode (integerColumns ["x", "y", "x"])
    (integerColumns ["z", "x", "x", "x"]) (by decide)
  refine ⟨hpairing.occurrences "x", hmaximum _ ⟨by decide, by decide, ?_⟩⟩
  simp [RelatedAt, integerColumns, Column.normalizedName, NameCase.normalize]

/-! ## Columns that match -/

/-- The columns at two places are compared with each other, and have types that allow it. -/
def Compared (config : Config) (expected actual : List Column) (i j : Nat) : Prop :=
  (CellMatcher.ofColumns config expected actual).actualIndex? i = some j ∧
    RelatedAt (fun c d => c.type.compatible d.type config.conversion = true) expected actual i j

theorem compared_positional (hmode : config.columnMode = .positional)
    (h : columnsMatch config expected actual = .ok true) {i : Nat} (hi : i < expected.length) :
    Compared config expected actual i i := by
  rw [columnsMatch, hmode] at h
  have htypes := columnsMatchByPosition_eq_true_iff.mp (Except.ok.inj h)
  have hi' : i < actual.length := htypes.length_eq ▸ hi
  refine ⟨by rw [CellMatcher.ofColumns, hmode]; rfl, expected[i], actual[i],
    List.getElem?_eq_getElem hi, List.getElem?_eq_getElem hi', ?_⟩
  exact htypes.get hi hi'

theorem compared_byName (hmode : config.columnMode = .byName)
    (h : columnsMatch config expected actual = .ok true) {i j : Nat}
    (hname : RelatedAt (fun c d => c.normalizedName config.nameCase =
      d.normalizedName config.nameCase) expected actual i j) :
    Compared config expected actual i j := by
  rw [columnsMatch, hmode] at h
  obtain ⟨hnames, htypes⟩ := columnsMatchByName_eq_ok_true_iff.mp h
  obtain ⟨c, d, hc, hd, hcd⟩ := hname
  refine ⟨?_, c, d, hc, hd, htypes c (List.mem_of_getElem? hc) d (List.mem_of_getElem? hd) hcd⟩
  obtain ⟨hi, rfl⟩ := List.getElem?_eq_some_iff.mp hc
  obtain ⟨hj, rfl⟩ := List.getElem?_eq_some_iff.mp hd
  rw [CellMatcher.ofColumns, hmode]
  exact actualIndex?_byName_eq hnames hi hj hcd

/-- Columns that match are paired completely, in the order of the expected ones, with the columns
that they are compared with. -/
theorem exists_pairColumns_eq_map_both (h : columnsMatch config expected actual = .ok true) :
    ∃ pairs : List (Nat × Nat),
      pairColumns config expected actual = pairs.map (fun p => both p.1 p.2) ∧
        pairs.map Prod.fst = List.range expected.length ∧
        PerfectMatching (Compared config expected actual) (List.range expected.length)
          (List.range actual.length) pairs := by
  rcases columnsMatch_eq_ok_true h with ⟨hmode, hlength⟩ | ⟨hmode, hnames⟩
  · refine ⟨(List.range expected.length).map fun i => (i, i), ?_, ?_, ?_, ?_, ?_⟩
    · rw [pairColumns_of_positional hmode, ← hlength, positional_self, List.map_map]
      rfl
    · simp [Function.comp_def]
    · simp [Function.comp_def]
    · simp [Function.comp_def, hlength]
    · intro p hp
      obtain ⟨i, hi, rfl⟩ := List.mem_map.mp hp
      exact compared_positional hmode h (List.mem_range.mp hi)
  · have hcomplete := all_isComplete_pairColumns h
    have hpairing := namePairing_pairColumns hmode hnames.named
    have hturn := hpairing.map_expected?_eq hcomplete
    have hcovers := hpairing.covers
    simp only [List.length_map] at hturn hcovers
    have hjoined : ∀ line ∈ pairColumns config expected actual,
        ∃ i j, line = both i j ∧ Compared config expected actual i j := by
      intro line hline
      obtain ⟨i, j, rfl⟩ := exists_eq_both_of_isComplete (hcomplete line hline)
      have hname := hpairing.related i j hline
      rw [relatedAt_map] at hname
      exact ⟨i, j, rfl, compared_byName hmode h hname⟩
    obtain ⟨pairs, hlines, hpairs⟩ := hcovers.perfectMatching hjoined
    refine ⟨pairs, hlines, ?_, hpairs⟩
    rw [hlines, List.map_map] at hturn
    have hsome := Option.some_injective Nat
    apply hsome.list_map
    rw [List.map_map]
    exact hturn

theorem both_mem_pairColumns_iff (h : columnsMatch config expected actual = .ok true) {i j : Nat} :
    both i j ∈ pairColumns config expected actual ↔
      i < expected.length ∧
        (CellMatcher.ofColumns config expected actual).actualIndex? i = some j := by
  obtain ⟨pairs, hlines, hturn, hpairs⟩ := exists_pairColumns_eq_map_both h
  rw [hlines]
  constructor
  · intro hline
    obtain ⟨p, hp, heq⟩ := List.mem_map.mp hline
    cases heq
    exact ⟨List.mem_range.mp (hpairs.left.subset (List.mem_map_of_mem hp)),
      (hpairs.related p hp).1⟩
  · rintro ⟨hi, hj⟩
    obtain ⟨p, hp, rfl⟩ := List.mem_map.mp (hpairs.left.symm.subset (List.mem_range.mpr hi))
    cases (hpairs.related p hp).1.symm.trans hj
    exact List.mem_map.mpr ⟨p, hp, rfl⟩

/-- Rows match if the cells on each line of the columns do. -/
theorem rowsMatch_iff_pairColumns (h : columnsMatch config expected actual = .ok true) {e a : Row}
    (he : e.cells.length = expected.length) (ha : a.cells.length = actual.length) :
    (CellMatcher.ofColumns config expected actual).rowsMatch e a = .ok true ↔
      ∀ i j, both i j ∈ pairColumns config expected actual →
        RelatedAt (fun x y => x.matchesCell y config.conversion = .ok true)
          e.cells a.cells i j := by
  rw [CellMatcher.rowsMatch_eq_ok_true_iff, conversion_ofColumns]
  constructor
  · rintro ⟨_, hcells⟩ i j hline
    obtain ⟨hi, hj⟩ := (both_mem_pairColumns_iff h).mp hline
    have hcell := List.getElem?_eq_getElem (he ▸ hi)
    obtain ⟨partner, hpartner, hmatch⟩ := hcells i j _ hcell hj
    exact ⟨_, partner, hcell, hpartner, hmatch⟩
  · intro hlines
    obtain ⟨pairs, _, _, hpairs⟩ := exists_pairColumns_eq_map_both h
    have hlength := hpairs.length_eq
    rw [List.length_range, List.length_range, ← he, ← ha] at hlength
    constructor
    · intro _
      exact hlength
    intro i j cell hcell hj
    have hi := (List.getElem?_eq_some_iff.mp hcell).1
    obtain ⟨x, y, hx, hy, hmatch⟩ := hlines i j ((both_mem_pairColumns_iff h).mpr ⟨he ▸ hi, hj⟩)
    cases hcell.symm.trans hx
    exact ⟨y, hy, hmatch⟩

/-- The lines of columns that match are a one-to-one pairing of all columns, in the order of the
expected ones.  Each line shows an expected column with the actual one that its cells are compared
with, and the types of the two allow that. -/
theorem pairColumns_of_columnsMatch (h : columnsMatch config expected actual = .ok true) :
    (pairColumns config expected actual).map (·.expected?) =
        (List.range expected.length).map some ∧
      (∀ line ∈ pairColumns config expected actual, line.isComplete = true) ∧
      ((pairColumns config expected actual).filterMap (·.actual?)).Perm
        (List.range actual.length) ∧
      (∀ i < expected.length, ∀ j, (pairColumns config expected actual)[i]? = some (both i j) ↔
        (CellMatcher.ofColumns config expected actual).actualIndex? i = some j) ∧
      (∀ i j, both i j ∈ pairColumns config expected actual →
        RelatedAt (fun c d => c.type.compatible d.type config.conversion = true)
          expected actual i j) ∧
      ∀ e a : Row, e.cells.length = expected.length → a.cells.length = actual.length →
        ((CellMatcher.ofColumns config expected actual).rowsMatch e a = .ok true ↔
          ∀ i j, both i j ∈ pairColumns config expected actual →
            RelatedAt (fun x y => x.matchesCell y config.conversion = .ok true)
              e.cells a.cells i j) := by
  obtain ⟨pairs, hlines, hturn, hpairs⟩ := exists_pairColumns_eq_map_both h
  refine ⟨?_, all_isComplete_pairColumns h, ?_, ?_, ?_, ?_⟩
  · rw [hlines, ← hturn, List.map_map, List.map_map]
    rfl
  · rw [hlines, List.filterMap_map]
    simpa [Function.comp_def, both] using hpairs.right
  · intro i hi j
    have hat : pairs[i]?.map Prod.fst = some i := by
      rw [← List.getElem?_map, hturn, List.getElem?_range hi]
    obtain ⟨p, hp, rfl⟩ := Option.map_eq_some_iff.mp hat
    rw [hlines, List.getElem?_map, hp, (hpairs.related p (List.mem_of_getElem? hp)).1]
    simp [both]
  · intro i j hline
    rw [hlines] at hline
    obtain ⟨p, hp, heq⟩ := List.mem_map.mp hline
    cases heq
    exact (hpairs.related p hp).2
  · intro e a he ha
    exact rowsMatch_iff_pairColumns h he ha

end

theorem pairColumns_of_columnsMatch_ba :
    (pairColumns { columnMode := .byName } (integerColumns ["b", "a"])
        (integerColumns ["a", "b"]))[0]? = some (both 0 1) ∧
      RelatedAt (fun x y : Value => x.matchesCell y .strict = .ok true)
        [.literal (.integer 1), .literal (.integer 2)]
        [.literal (.integer 2), .literal (.integer 1)] 0 1 := by
  have hmatch : columnsMatch { columnMode := .byName } (integerColumns ["b", "a"])
      (integerColumns ["a", "b"]) = .ok true := by
    refine columnsMatchByName_eq_ok_true_iff.mpr ⟨⟨by decide, by decide, by decide⟩, ?_⟩
    unfold CompatibleByName
    decide
  have hrow : (CellMatcher.ofColumns { columnMode := .byName } (integerColumns ["b", "a"])
      (integerColumns ["a", "b"])).rowsMatch ⟨[.literal (.integer 1), .literal (.integer 2)]⟩
        ⟨[.literal (.integer 2), .literal (.integer 1)]⟩ = .ok true := by
    cbv
  obtain ⟨_, _, _, hline, _, hrows⟩ := pairColumns_of_columnsMatch hmatch
  have hfirst := (hline 0 (by decide) 1).mpr (by decide)
  exact ⟨hfirst, (hrows _ _ rfl rfl).mp hrow 0 1 (List.mem_of_getElem? hfirst)⟩

end TableDiff
