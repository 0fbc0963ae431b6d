import TableDiff.Proofs.Outcome.RowModes

/-!
# Rows that match in their order

Rows that match one by one can be paired in any order as well.  Under relaxed conversion the search
in any order may still miss this: rows without predicates are paired first, and one of them may take
a double that another row tests for, where it could have taken a different double with the same
decimal form.  If no column holds two such doubles, nothing is lost.
-/

namespace TableDiff

namespace Table

variable {t : Table}

/-- Doubles of one column are equal if they have the same decimal form. -/
def DoublesApart (t : Table) : Prop :=
  ∀ row ∈ t.rows, ∀ row' ∈ t.rows, ∀ (j : Nat) (x y : Binary64),
    row.cells[j]? = some (.literal (.float x)) → row'.cells[j]? = some (.literal (.float y)) →
    (Literal.float x).equivalent (.float y) .relaxed = true → (Literal.float x == .float y) = true

/-- A column holds literals of one type, and of one type only doubles can be equivalent without
being equal. -/
theorem DoublesApart.beq_of_equivalent (h : t.DoublesApart) (ht : t.Built)
    {row row' : Row} (hrow : row ∈ t.rows) (hrow' : row' ∈ t.rows) {j : Nat} {a b : Literal}
    (ha : row.cells[j]? = some (.literal a)) (hb : row'.cells[j]? = some (.literal b))
    (hequivalent : a.equivalent b .relaxed = true) : (a == b) = true := by
  have hj : j < t.columns.length := by
    rw [← ht.length_cells hrow]
    exact (List.getElem?_eq_some_iff.mp ha).1
  have hcolumn := List.getElem?_eq_getElem hj
  have hatype := ht.holds hrow hcolumn ha a rfl
  have hbtype := ht.holds hrow' hcolumn hb b rfl
  by_cases hfloat : a.dataType = .float
  · obtain ⟨x, rfl⟩ := Literal.exists_eq_float hfloat
    obtain ⟨y, rfl⟩ := Literal.exists_eq_float (hbtype.trans (hatype.symm.trans hfloat))
    exact h row hrow row' hrow' j x y ha hb hequivalent
  · exact Literal.beq_of_equivalent_relaxed hequivalent (hatype.trans hbtype.symm) hfloat

theorem DoublesApart.agreesOn (h : t.DoublesApart) (ht : t.Built) {p : Predicate}
    (hp : p.Respects .strict) {row row' : Row} (hrow : row ∈ t.rows) (hrow' : row' ∈ t.rows) :
    p.AgreesOn .relaxed row row' := by
  intro j a b ha hb hequivalent
  apply hp
  rw [Literal.equivalent_strict_iff]
  exact h.beq_of_equivalent ht hrow hrow' ha hb hequivalent

theorem DoublesApart.joins_exchange (h : t.DoublesApart) {m : CellMatcher} {s : Table}
    (hconversion : m.conversion = .relaxed) (hs : s.Built) (ht : t.Built)
    (hrespect : s.PredicatesRespect .strict) :
    ∀ e ∈ Entry.ofTable s, e.row.hasPredicate = false → ∀ x ∈ Entry.ofTable s,
      ∀ a ∈ Entry.ofTable t, ∀ a' ∈ Entry.ofTable t,
        m.Joins e a → m.Joins e a' → m.Joins x a → m.Joins x a' := by
  apply joins_exchange_of_agreesOn hs
  intro row hrow p hp a ha a' ha'
  rw [hconversion]
  exact h.agreesOn ht (hrespect row hrow p hp) (Entry.row_mem_of_mem_ofTable ha)
    (Entry.row_mem_of_mem_ofTable ha')

end Table

namespace Comparison

variable {config : Config} {s t : Table}

def inOrder (config : Config) (s t : Table) : Comparison :=
  ⟨{ config with rowMode := .ordered }, s, t⟩

theorem matchable_of_inOrder (h : (inOrder config s t).isMatch = .ok true) :
    config.validate = .ok () ∧ TableDiff.columnsMatch config s.columns t.columns = .ok true ∧
      Matchable (CellMatcher.ofColumns config s.columns t.columns).Joins
        (Entry.ofTable s) (Entry.ofTable t) := by
  obtain ⟨o, ho, hmatched⟩ := isMatch_eq_ok_true_iff.mp h
  obtain ⟨pairs, _, hpairs⟩ := (outcome_sound ho).perfectMatching hmatched
  exact ⟨validate_of_outcome_eq_ok ho, (columnsMatch_of_matched ho hmatched).1,
    matchable_ofTable_iff.mpr ⟨pairs, hpairs⟩⟩

/-- Under relaxed conversion a match in row order is found in any order too, within the limit, if
the doubles of each column are told apart by their decimal forms. -/
theorem inAnyOrder_of_inOrder
    (hconversion : config.conversion = .relaxed) (hs : s.Built) (ht : t.Built)
    (hfree : t.PredicateFree) (hrespect : s.PredicatesRespect .strict) (hapart : t.DoublesApart)
    (hordered : (inOrder config s t).isMatch = .ok true) :
    (inAnyOrder config s t).isMatch = .ok true ∨
      (inAnyOrder config s t).isMatch =
        .error (.tooManyPermutations config.permutationLimit) := by
  obtain ⟨hvalid, hcolumns, hmatchable⟩ := matchable_of_inOrder hordered
  rw [isMatch, outcome_inAnyOrder hvalid hcolumns]
  rw [← conversion_ofColumns config s.columns t.columns] at hconversion
  generalize CellMatcher.ofColumns config s.columns t.columns = m at *
  rcases RowMatch.exists_anyOrder_ofTable_eq_ok m config.permutationLimit s hfree with
    ⟨r, hr⟩ | hlimit
  · left
    have hmatched := RowMatch.anyOrder_of_matchable hr hmatchable
      (hapart.joins_exchange hconversion hs ht hrespect)
    rw [hr]
    exact congrArg Except.ok hmatched
  · right
    rw [hlimit]
    rfl

end Comparison

/-- The double nearest to `0.3`. -/
def Binary64.threeTenths : Binary64 :=
  .finite ⟨false, 5404319552844595, -54, by decide, by decide, by decide, by decide⟩

namespace Row

def decimalThreeTenths : Row := ⟨[.literal (.decimal ⟨false, 3, 1, by decide, by decide⟩)]⟩

def testThreeTenths : Row :=
  ⟨[.predicate ⟨"eq 0.3", fun v => v.any (· == .float .threeTenths)⟩]⟩

def doubleThreeTenths : Row := ⟨[.literal (.float .threeTenths)]⟩

end Row

namespace Table

def decimalThenTest : Table where
  columns := [⟨none, .decimal, false⟩]
  rows := [.decimalThreeTenths, .testThreeTenths]
  conversion := .strict

def threeTenthsTwice : Table where
  columns := [⟨none, .float, false⟩]
  rows := [.doubleThreeTenths, .doubleThreeTenths]
  conversion := .strict

theorem built_decimalThenTest : decimalThenTest.Built := built_of_reread rfl

theorem built_threeTenthsTwice : threeTenthsTwice.Built := built_of_reread rfl

theorem predicateFree_threeTenthsTwice : threeTenthsTwice.PredicateFree := by
  simp [PredicateFree, threeTenthsTwice, Row.doubleThreeTenths, Row.hasPredicate,
    Value.isPredicate]

theorem doublesApart_threeTenthsTwice : threeTenthsTwice.DoublesApart := by
  have hdouble : ∀ row ∈ threeTenthsTwice.rows, ∀ (j : Nat) (x : Binary64),
      row.cells[j]? = some (.literal (.float x)) → x = .threeTenths := by
    intro row hrow j x hx
    have hmem := List.mem_of_getElem? hx
    simp only [threeTenthsTwice, List.mem_cons, List.not_mem_nil, or_false, or_self] at hrow
    simpa [hrow, Row.doubleThreeTenths] using hmem
  intro row hrow row' hrow' j x y hx hy _
  rw [hdouble row hrow j x hx, hdouble row' hrow' j y hy]
  exact BEq.rfl

end Table

theorem Predicate.respects_beq (description : String) (l : Literal) :
    Predicate.Respects ⟨description, fun v => v.any (· == l)⟩ .strict := by
  intro a b hab
  exact BEq.congr_left (Literal.equivalent_strict_iff.mp hab)

theorem Table.predicatesRespect_decimalThenTest : decimalThenTest.PredicatesRespect .strict := by
  simp [PredicatesRespect, decimalThenTest, Row.decimalThreeTenths, Row.testThreeTenths,
    Predicate.respects_beq]

namespace Comparison

theorem inAnyOrder_of_inOrder_threeTenthsTwice :
    (inAnyOrder { conversion := .relaxed } .decimalThenTest .threeTenthsTwice).isMatch =
        .ok true ∨
      (inAnyOrder { conversion := .relaxed } .decimalThenTest .threeTenthsTwice).isMatch =
        .error (.tooManyPermutations 10000) := by
  have hordered : (inOrder { conversion := .relaxed } .decimalThenTest
      .threeTenthsTwice).isMatch = .ok true := by
    decide +kernel
  exact inAnyOrder_of_inOrder rfl Table.built_decimalThenTest Table.built_threeTenthsTwice
    Table.predicateFree_threeTenthsTwice Table.predicatesRespect_decimalThenTest
    Table.doublesApart_threeTenthsTwice hordered

end Comparison

/-! ## Doubles with the same decimal form -/

/-- The double above `threeTenths`, which has the same decimal form. -/
def Binary64.aboveThreeTenths : Binary64 :=
  .finite ⟨false, 5404319552844596, -54, by decide, by decide, by decide, by decide⟩

def Row.doubleAbove : Row := ⟨[.literal (.float .aboveThreeTenths)]⟩

namespace Table

/-- Two different doubles with the decimal form `0.3`. -/
def nearThreeTenths : Table where
  columns := [⟨none, .float, false⟩]
  rows := [.doubleAbove, .doubleThreeTenths]
  conversion := .strict

theorem built_nearThreeTenths : nearThreeTenths.Built := built_of_reread rfl

theorem predicateFree_nearThreeTenths : nearThreeTenths.PredicateFree := by
  simp [PredicateFree, nearThreeTenths, Row.doubleAbove, Row.doubleThreeTenths, Row.hasPredicate,
    Value.isPredicate]

end Table

theorem canonicalOrder_of_lt {a b : Entry}
    (h : compare b.row.canonicalKey a.row.canonicalKey = .lt) : canonicalOrder [a, b] = [b, a] := by
  have hswap : compare a.row.canonicalKey b.row.canonicalKey = .gt := by
    have hflip : compare a.row.canonicalKey b.row.canonicalKey =
        (compare b.row.canonicalKey a.row.canonicalKey).swap := Std.OrientedCmp.eq_swap
    rw [hflip, h]
    rfl
  simp [canonicalOrder, sortBy, List.mergeSort, List.MergeSort.Internal.splitInTwo, compareLex,
    compareOn, hswap]

/-- The decimal row takes the double that the other row tests for, since that has the lower text. -/
theorem pairLiteralRows_nearThreeTenths :
    pairLiteralRows (.positional .relaxed) [⟨0, 0, .decimalThreeTenths⟩]
        (Entry.ofTable .nearThreeTenths) =
      .ok ([(⟨0, 0, .decimalThreeTenths⟩, ⟨1, 1, .doubleThreeTenths⟩)],
        [⟨0, 0, .doubleAbove⟩]) := by
  have horder : canonicalOrder (Entry.ofTable .nearThreeTenths) =
      [⟨1, 1, .doubleThreeTenths⟩, ⟨0, 0, .doubleAbove⟩] :=
    canonicalOrder_of_lt (by decide +kernel)
  have hsingle : canonicalOrder [⟨0, 0, .decimalThreeTenths⟩] =
      [⟨0, 0, .decimalThreeTenths⟩] := by
    simp [canonicalOrder, sortBy]
  have htaken : (CellMatcher.positional .relaxed).rowsMatch .decimalThreeTenths
      .doubleThreeTenths = .ok true := by
    decide +kernel
  simp [pairLiteralRows, horder, hsingle, pairGreedily, takeMatch, htaken, sortBy, pure,
    Except.pure]

theorem pairPredicateRows_doubleAbove :
    pairPredicateRows (.positional .relaxed) 10000 [⟨1, 1, .testThreeTenths⟩]
      [⟨0, 0, .doubleAbove⟩] = .ok none := by
  have hleft : (CellMatcher.positional .relaxed).rowsMatch .testThreeTenths .doubleAbove =
      .ok false := by
    decide +kernel
  have hempty : (Compatibility.ofMatrix 1 [[false]]).forward.anyEmpty = true := by
    cbv
  simp [pairPredicateRows, hleft, hempty, pure, Except.pure]

namespace Comparison

theorem isMatch_inOrder_decimalThenTest :
    (inOrder { conversion := .relaxed } .decimalThenTest .nearThreeTenths).isMatch = .ok true := by
  decide +kernel

theorem isMatch_inAnyOrder_decimalThenTest :
    (inAnyOrder { conversion := .relaxed } .decimalThenTest .nearThreeTenths).isMatch =
      .ok false := by
  have hpairing : matchAnyOrder (.positional .relaxed) 10000 (Entry.ofTable .decimalThenTest)
      (Entry.ofTable .nearThreeTenths) = .ok ⟨[⟨0, 1⟩], 1, rfl⟩ := by
    have hliteral : (Entry.ofTable .decimalThenTest).filter (fun e => !e.row.hasPredicate) =
        [⟨0, 0, .decimalThreeTenths⟩] := rfl
    have hpredicate : (Entry.ofTable .decimalThenTest).filter (fun e => e.row.hasPredicate) =
        [⟨1, 1, .testThreeTenths⟩] := rfl
    rw [matchAnyOrder_eq, hliteral, hpredicate, pairLiteralRows_nearThreeTenths, ok_bind]
    dsimp only
    rw [pairPredicateRows_doubleAbove, ok_bind]
    cbv
  have hrows : RowMatch.anyOrder (.positional .relaxed) 10000 (Entry.ofTable .decimalThenTest)
      (Entry.ofTable .nearThreeTenths) =
        .ok ⟨false, [.both 0 1, .expectedOnly 1, .actualOnly 0]⟩ := by
    rw [RowMatch.anyOrder, hpairing, ok_bind]
    cbv
  have hcolumns : TableDiff.columnsMatch { conversion := .relaxed } Table.decimalThenTest.columns
      Table.nearThreeTenths.columns = .ok true := rfl
  have hmatcher : CellMatcher.ofColumns { conversion := .relaxed } Table.decimalThenTest.columns
      Table.nearThreeTenths.columns = .positional .relaxed := rfl
  rw [isMatch, outcome_inAnyOrder rfl hcolumns, hmatcher, hrows]
  rfl

/-- A match in row order is missed where a column holds two doubles with the same decimal form. -/
theorem inAnyOrder_misses_inOrder :
    Table.decimalThenTest.Built ∧ Table.nearThreeTenths.Built ∧
      Table.nearThreeTenths.PredicateFree ∧ Table.decimalThenTest.PredicatesRespect .strict ∧
      (inOrder { conversion := .relaxed } .decimalThenTest .nearThreeTenths).isMatch = .ok true ∧
      (inAnyOrder { conversion := .relaxed } .decimalThenTest .nearThreeTenths).isMatch =
        .ok false := by
  have hexpected := Table.built_decimalThenTest
  have hactual := Table.built_nearThreeTenths
  have hfree := Table.predicateFree_nearThreeTenths
  have hrespect := Table.predicatesRespect_decimalThenTest
  refine ⟨hexpected, hactual, hfree, hrespect, ?_, ?_⟩
  · exact isMatch_inOrder_decimalThenTest
  · exact isMatch_inAnyOrder_decimalThenTest

end Comparison

end TableDiff
