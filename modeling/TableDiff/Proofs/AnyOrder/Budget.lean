import TableDiff.Proofs.AnyOrder.Matching
import TableDiff.Proofs.Budget

/-!
# The search under a limit

The dead ends of a search are counted on from those met before.  The search takes the same choices
under every limit, so it meets the same dead ends, up to the one at which the limit stops it.
-/

namespace TableDiff

theorem Conclusive.add (l : Pairing) (p : IndexPair) : Conclusive (l.add p) := by
  unfold Pairing.add
  split
  · exact .error rfl
  · split
    · exact .error rfl
    · exact .ok _

theorem Conclusive.addFresh (expected actual : Std.TreeSet Nat) (l : Pairing)
    (pairs : List IndexPair) : Conclusive (Pairing.addFresh expected actual l pairs) := by
  induction pairs generalizing expected actual l with
  | nil => exact .ok l
  | cons p pairs ih =>
      unfold Pairing.addFresh
      split
      · exact .error rfl
      · split
        · exact .error rfl
        · exact ih _ _ _

theorem Conclusive.ofList (pairs : List IndexPair) : Conclusive (Pairing.ofList pairs) :=
  .addFresh _ _ _ _

/-- A search whose limit only decides whether there is time for its answer, and which counts on from
the dead ends met before it. -/
def CountedThreshold {α : Type} (f : Nat → Nat → Except MatchError (Option α × Nat)) : Prop :=
  ∃ cost result, Conclusive result ∧ ∀ limit before, before < limit →
    f limit before = upTo (before + cost) limit (result.map fun found => (found, before + cost))

namespace CountedThreshold

variable {α β : Type}

theorem congr {f g : Nat → Nat → Except MatchError (Option α × Nat)} (hg : CountedThreshold g)
    (h : ∀ limit before, f limit before = g limit before) : CountedThreshold f := by
  rw [funext₂ h]
  exact hg

theorem ok (found : Option α) : CountedThreshold fun _ before => .ok (found, before) := by
  refine ⟨0, .ok found, .ok found, ?_⟩
  intro limit before hbefore
  exact (upTo_of_lt hbefore _).symm

/-- A dead end is one more dead end, if there is room for it. -/
theorem deadEnd : CountedThreshold (α := α) fun limit before =>
    if limit ≤ before + 1 then .error (.tooManyPermutations limit) else .ok (none, before + 1) := by
  refine ⟨1, .ok none, .ok none, ?_⟩
  intro limit before _
  dsimp only
  by_cases hlt : before + 1 < limit
  · rw [if_neg (by omega), upTo_of_lt hlt]
    rfl
  · rw [if_pos (by omega), upTo_of_le (by omega)]

theorem bind {x : Except MatchError β} (hx : Conclusive x)
    {f : β → Nat → Nat → Except MatchError (Option α × Nat)} (hf : ∀ b, CountedThreshold (f b)) :
    CountedThreshold fun limit before => x >>= fun b => f b limit before := by
  cases x with
  | ok b => exact hf b
  | error e =>
      refine ⟨0, .error e, .error (hx e rfl), ?_⟩
      intro limit before hbefore
      rw [Nat.add_zero, upTo_of_lt hbefore]
      rfl

/-- Choices that fail add up their dead ends; the first that does not fail ends the search. -/
theorem firstResult {attempt : Nat → Nat → Nat → Except MatchError (Option α × Nat)}
    (choices : List Nat) (h : ∀ choice, CountedThreshold (attempt choice)) :
    CountedThreshold fun limit before =>
      TableDiff.firstResult (fun choice => attempt choice limit) choices before := by
  induction choices with
  | nil => exact ok none
  | cons choice choices ih =>
      rcases h choice with ⟨cost, result, hresult, hattempt⟩
      rcases ih with ⟨later, rest, hrest, hchoices⟩
      by_cases hfailed : result = .ok none
      · refine ⟨cost + later, rest, hrest, ?_⟩
        intro limit before hbefore
        dsimp only
        rw [TableDiff.firstResult, hattempt limit before hbefore, ← Nat.add_assoc, hfailed]
        by_cases hlt : before + cost < limit
        · rw [upTo_of_lt hlt]
          exact hchoices limit (before + cost) hlt
        · rw [upTo_of_le (by omega), upTo_of_le (by omega)]
      · refine ⟨cost, result, hresult, ?_⟩
        intro limit before hbefore
        dsimp only
        rw [TableDiff.firstResult, hattempt limit before hbefore]
        by_cases hlt : before + cost < limit
        · rw [upTo_of_lt hlt]
          cases result with
          | error e => rfl
          | ok found =>
              cases found with
              | some a => rfl
              | none => exact absurd rfl hfailed
        · rw [upTo_of_le (by omega)]

theorem run (primary : Candidates) (order : List Nat) (pairs : Pairing) (matched used : IndexSet) :
    CountedThreshold fun limit before =>
      Search.run ⟨primary, order, limit⟩ pairs matched used before := by
  -- every choice leaves one row less that is not matched yet
  induction hn : primary.unmatched matched using Nat.strong_induction_on
    generalizing pairs matched used with
  | _ n ih =>
    cases hnext : primary.nextRow matched used with
    | none =>
        apply (ok (some pairs)).congr
        intro limit before
        rw [Search.run_eq]
        dsimp only
        rw [hnext]
    | some chosen =>
        rcases chosen with ⟨row, free⟩
        cases hfree : free.isEmpty with
        | true =>
            apply deadEnd.congr
            intro limit before
            rw [Search.run_eq]
            dsimp only
            rw [hnext]
            exact if_pos hfree
        | false =>
            rcases Candidates.nextRow_eq_some hnext with ⟨candidates, hrow, hunmatched, _⟩
            have hlt : primary.unmatched (matched.insert row) < n := by
              rw [← hn]
              exact Candidates.unmatched_insert_lt hrow hunmatched
            have hattempt : ∀ choice, CountedThreshold fun limit before =>
                pairs.add ⟨row, choice⟩ >>= fun extended =>
                  Search.run ⟨primary, order, limit⟩ extended (matched.insert row)
                    (used.insert choice) before := by
              intro choice
              apply bind (.add pairs ⟨row, choice⟩)
              intro extended
              exact ih _ hlt extended (matched.insert row) (used.insert choice) rfl
            apply (firstResult (order.filter free.contains) hattempt).congr
            intro limit before
            rw [Search.run_eq]
            dsimp only
            rw [hnext]
            exact if_neg (by simp [hfree])

end CountedThreshold

namespace Threshold

theorem solve (primary : Candidates) (order : List Nat) :
    Threshold fun limit => Search.solve ⟨primary, order, limit⟩ := by
  rcases CountedThreshold.run primary order .empty .empty .empty with ⟨cost, result, hresult, hrun⟩
  refine ⟨cost, result, hresult, ?_⟩
  intro limit hlimit
  have hstart := hrun limit 0 hlimit
  dsimp only at hstart ⊢
  rw [Search.solve, hstart, Nat.zero_add]
  by_cases hlt : cost < limit
  · rw [upTo_of_lt hlt, upTo_of_lt hlt]
    cases result with
    | ok found => rfl
    | error e => rfl
  · rw [upTo_of_le (by omega), upTo_of_le (by omega)]
    rfl

theorem solveCompatibility (c : Compatibility) : Threshold fun limit => c.solve limit := by
  apply ite
  · exact (solve c.forward c.backward.order).map _
  · exact (solve c.backward c.forward.order).map _

end Threshold

/-! ## Rows in any order -/

namespace Conclusive

variable (m : CellMatcher)

theorem rowsMatch (e a : Row) : Conclusive (m.rowsMatch e a) := .lift _

theorem takeMatch (e : Row) (available : List Entry) :
    Conclusive (takeMatch m e available) := by
  induction available with
  | nil => exact .ok none
  | cons a rest ih =>
      unfold TableDiff.takeMatch
      apply bind (rowsMatch m e a.row)
      intro matched
      cases matched with
      | true => exact .ok _
      | false => exact bind ih fun found => .ok _

theorem pairGreedily (expected available : List Entry) :
    Conclusive (pairGreedily m expected available) := by
  induction expected generalizing available with
  | nil => exact .ok _
  | cons e expected ih =>
      unfold TableDiff.pairGreedily
      apply bind (takeMatch m e.row available)
      intro found
      cases found with
      | none => exact ih available
      | some taken => exact bind (ih taken.2) fun rest => .ok _

theorem pairLiteralRows (literal actual : List Entry) :
    Conclusive (pairLiteralRows m literal actual) := by
  refine bind (pairGreedily m _ _) ?_
  intro _
  exact .ok _

end Conclusive

namespace Threshold

variable (m : CellMatcher)

theorem pairPredicateRows (predicate actual : List Entry) :
    Threshold fun limit => pairPredicateRows m limit predicate actual := by
  apply ite (const (.ok _))
  apply ite (const (.ok _))
  have hmatrix : Conclusive (m.matrix predicate actual) :=
    .mapM fun e => .mapM fun a => .rowsMatch m e.row a.row
  apply (const hmatrix).bind
  intro matrix
  apply ite (const (.ok _))
  exact (solveCompatibility _).map _

theorem matchAnyOrder (expected actual : List Entry) :
    Threshold fun limit => matchAnyOrder m limit expected actual := by
  simp only [matchAnyOrder_eq]
  apply (const (.pairLiteralRows m _ _)).bind
  intro paired
  apply (pairPredicateRows m _ _).bind
  intro found
  exact const (.ofList _)

theorem anyOrder (expected actual : List Entry) :
    Threshold fun limit => RowMatch.anyOrder m limit expected actual :=
  (matchAnyOrder m expected actual).map _

end Threshold

end TableDiff
