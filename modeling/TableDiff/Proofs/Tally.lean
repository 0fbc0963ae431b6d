import TableDiff.Proofs.AnyOrder.Verdict

/-!
# The size of a diff

A tally keeps from a result its verdict and how many rows of either side stand alone.  Tallies of
groups add up in any order.  The tally of rows in any order only depends on how many of them are
paired.
-/

namespace TableDiff

/-- A verdict and the number of rows without a partner on either side. -/
structure Tally where
  matched : Bool
  unmatchedExpected : Nat
  unmatchedActual : Nat

namespace Tally

def append (a b : Tally) : Tally where
  matched := a.matched && b.matched
  unmatchedExpected := a.unmatchedExpected + b.unmatchedExpected
  unmatchedActual := a.unmatchedActual + b.unmatchedActual

instance : RightCommutative append where
  right_comm a b c := by
    simp only [append, Bool.and_assoc, Bool.and_comm b.matched, Nat.add_right_comm]

/-- The tally of `m` expected and `n` actual rows of which `k` on each side are paired. -/
def ofPaired (k m n : Nat) : Tally := ⟨decide (k = m ∧ k = n), m - k, n - k⟩

end Tally

namespace RowMatch

def tally (r : RowMatch) : Tally where
  matched := r.matched
  unmatchedExpected := r.lines.countP (·.actual?.isNone)
  unmatchedActual := r.lines.countP (·.expected?.isNone)

@[simp] theorem tally_append (r r' : RowMatch) : (r.append r').tally = r.tally.append r'.tally := by
  simp [tally, append, Tally.append]

theorem tally_foldl_append (results : List RowMatch) (r : RowMatch) :
    (results.foldl append r).tally = (results.map tally).foldl Tally.append r.tally := by
  induction results generalizing r with
  | nil => rfl
  | cons head results ih => rw [List.foldl_cons, ih, tally_append, List.map_cons, List.foldl_cons]

end RowMatch

/-! ## Lines with two sides -/

namespace DiffLine

theorem all_isComplete_iff {lines : List DiffLine} :
    lines.all isComplete = true ↔
      lines.countP (·.actual?.isNone) = 0 ∧ lines.countP (·.expected?.isNone) = 0 := by
  have hline : ∀ line : DiffLine, line.isComplete = true ↔
      ¬line.actual?.isNone = true ∧ ¬line.expected?.isNone = true := by
    intro line
    rw [isComplete, Bool.and_eq_true, Bool.not_eq_true, Bool.not_eq_true,
      Option.isNone_eq_false_iff, Option.isNone_eq_false_iff, and_comm]
  simp only [List.all_eq_true, List.countP_eq_zero, hline, forall_and]

theorem countP_isNone_zip (is js : List Nat) :
    (zip is js).countP (·.actual?.isNone) = is.length - js.length ∧
      (zip is js).countP (·.expected?.isNone) = js.length - is.length := by
  fun_induction zip is js with
  | case1 js => simp [actualOnly, Function.comp_def]
  | case2 is _ => simp [expectedOnly, Function.comp_def]
  | case3 i is j js ih => simpa [both] using ih

end DiffLine

namespace Pairing

variable {l : Pairing} {expected actual : List Nat}

/-- Every pair is a line with two sides, and all other rows stand alone. -/
theorem countP_isNone_aligned
    (h : Distinct l.toList) (hexpected : expected.Nodup) (hactual : actual.Nodup)
    (hleft : ∀ p ∈ l.toList, p.expected ∈ expected)
    (hright : ∀ p ∈ l.toList, p.actual ∈ actual) :
    (l.aligned expected actual).countP (·.actual?.isNone) + l.size = expected.length ∧
      (l.aligned expected actual).countP (·.expected?.isNone) + l.size = actual.length := by
  have hcovers := covers_aligned h hexpected hactual hleft hright
  have hexpectedLines := hcovers.countP_actual?_isNone
  have hactualLines := hcovers.countP_expected?_isNone
  have hused : (actual.filter fun j => decide (j ∈ l.toList.map (·.actual))).Perm
      (l.toList.map (·.actual)) := by
    rw [List.perm_ext_iff_of_nodup (hactual.filter _) h.actual]
    intro j
    rw [List.mem_filter, decide_eq_true_eq, and_iff_right_iff_imp, List.mem_map]
    rintro ⟨p, hp, rfl⟩
    exact hright p hp
  have hsize := hused.length_eq
  rw [List.length_map, length_toList] at hsize
  have hsplit := List.length_eq_length_filter_add (l := actual)
    fun j => decide (j ∈ l.toList.map (·.actual))
  have hlength : (l.aligned expected actual).length = expected.length +
      (actual.filter fun j => !decide (j ∈ l.toList.map (·.actual))).length := by
    rw [aligned_eq h, List.length_append, List.length_map, List.length_map]
    simp only [decide_not]
  omega

end Pairing

/-- The tally of rows in any order tells how many of them are paired. -/
theorem RowMatch.anyOrder_tally {m : CellMatcher} {limit : Nat} {expected actual : List Entry}
    {r : RowMatch} (h : anyOrder m limit expected actual = .ok r)
    (hexpected : (expected.map (·.index)).Nodup) (hactual : (actual.map (·.index)).Nodup) :
    ∃ l, matchAnyOrder m limit expected actual = .ok l ∧
      r.tally = .ofPaired l.size expected.length actual.length := by
  obtain ⟨l, hl, hlines, hverdict⟩ := anyOrder_eq_ok h
  have hcounts := Pairing.countP_isNone_aligned (matchAnyOrder_sound hl).1 hexpected hactual
    (expected_mem_of_matchAnyOrder hl) (actual_mem_of_matchAnyOrder hl)
  rw [List.length_map, List.length_map, ← hlines] at hcounts
  have hmatched : r.matched =
      decide (l.size = expected.length ∧ l.size = actual.length) := by
    rw [Bool.eq_iff_iff, hverdict, DiffLine.all_isComplete_iff, decide_eq_true_eq]
    omega
  refine ⟨l, hl, ?_⟩
  rw [tally, Tally.ofPaired, hmatched]
  congr 1
  · omega
  · omega

end TableDiff
