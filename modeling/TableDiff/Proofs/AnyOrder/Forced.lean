import TableDiff.Proofs.AnyOrder.Verdict
import TableDiff.Proofs.PerfectMatching.Unique

/-!
# Problems with only one solution

A problem with only one solution leaves the search no choice.  Whatever pairs of the solution have
been made, some row has a single free candidate, and the search branches on a row with the fewest.
So it meets no dead end, and its limit, however low, does not matter.
-/

namespace TableDiff

theorem IndexPair.toProd_injective : Function.Injective IndexPair.toProd := by
  intro p q h
  cases p
  cases q
  simpa [toProd] using h

theorem firstResult_cons_eq_some
    {α : Type} {attempt : Nat → Nat → Except MatchError (Option α × Nat)} {choice : Nat}
    {choices : List Nat} {deadEnds after : Nat} {a : α}
    (h : attempt choice deadEnds = .ok (some a, after)) :
    firstResult attempt (choice :: choices) deadEnds = .ok (some a, after) := by
  rw [firstResult, h]

/-- As many candidates as rows, and a single way to assign them to each other. -/
structure Candidates.OnlySolution (m : Candidates) (R : Nat → Nat → Prop) (n : Nat)
    (all : List IndexPair) : Prop where
  order_perm : m.order.Perm (List.range n)
  admits_iff : ∀ p, m.Admits p ↔ R p.expected p.actual
  lt : ∀ i j, R i j → j < n
  only : OnlyMatching R (List.range n) (List.range n) (all.map IndexPair.toProd)

namespace Candidates.OnlySolution

variable {m : Candidates} {R : Nat → Nat → Prop} {n : Nat} {all : List IndexPair}
  {pairs : Pairing} {matched used : IndexSet} {row : Nat} {free : IndexSet}

theorem assigns (h : m.OnlySolution R n all) : m.Assigns all :=
  (assigns_iff h.order_perm h.admits_iff h.lt).mpr h.only.toPerfectMatching

theorem exists_of_admits (h : m.OnlySolution R n all) {p : IndexPair} (hp : m.Admits p) :
    ∃ q ∈ all, q.actual = p.actual := by
  have hlt := h.lt _ _ ((h.admits_iff p).mp hp)
  have hmem := h.only.right.symm.subset (List.mem_range.mpr hlt)
  simpa [IndexPair.toProd] using hmem

theorem exists_forced (h : m.OnlySolution R n all) {fixed : List IndexPair} {p : IndexPair}
    (hp : p ∈ all) (hfree : p ∉ fixed) :
    ∃ p ∈ all, p ∉ fixed ∧
      ∀ q ∈ all, q ∉ fixed → m.Admits ⟨p.expected, q.actual⟩ → q = p := by
  have hmem : ∀ (l : List IndexPair) q, q.toProd ∈ l.map IndexPair.toProd ↔ q ∈ l := by
    intro _ _
    exact List.mem_map_of_injective IndexPair.toProd_injective
  obtain ⟨r, hr, hrfree, hforced⟩ := h.only.exists_forced List.nodup_range List.nodup_range
    ((hmem all p).mpr hp) (mt (hmem fixed p).mp hfree)
  obtain ⟨p, hp, rfl⟩ := List.mem_map.mp hr
  refine ⟨p, hp, mt (hmem fixed p).mpr hrfree, ?_⟩
  intro q hq hqfree hadmits
  apply IndexPair.toProd_injective
  exact hforced q.toProd ((hmem all q).mpr hq) (mt (hmem fixed q).mp hqfree)
    ((h.admits_iff _).mp hadmits)

/-- The row that is chosen next has one free candidate at most. -/
theorem size_free_le_one (h : m.OnlySolution R n all)
    (hstate : PartialAssignment m pairs matched used) (hsub : pairs.toList ⊆ all)
    (hnext : m.nextRow matched used = some (row, free)) : free.size ≤ 1 := by
  have hmatched : ∀ p ∈ all, matched.contains p.expected = true → p ∈ pairs.toList := by
    intro p hp hrow
    obtain ⟨q, hq, heq⟩ := (hstate.matched_iff p.expected).mp hrow
    have hsame : q = p := List.inj_on_of_nodup_map h.assigns.distinct.expected (hsub hq) hp heq
    exact hsame ▸ hq
  obtain ⟨candidates, hrow, hunmatched, _⟩ := nextRow_eq_some hnext
  obtain ⟨p, hp, rfl⟩ := h.assigns.complete _ hrow
  have hpfree : p ∉ pairs.toList := by
    intro hmem
    have hcontains := (hstate.matched_iff p.expected).mpr ⟨p, hmem, rfl⟩
    rw [hunmatched] at hcontains
    cases hcontains
  obtain ⟨r, hr, hrfree, hforced⟩ := h.exists_forced hp hpfree
  have hrunmatched : matched.contains r.expected = false := by
    rw [Bool.eq_false_iff]
    intro hcontains
    exact hrfree (hmatched r hr hcontains)
  obtain ⟨others, hothers, _⟩ := h.assigns.admits r hr
  refine (size_le_of_nextRow_eq_some hnext _ hothers hrunmatched).trans ?_
  have hpartner : ∀ j, (others.without used).contains j = true → j = r.actual := by
    intro j hj
    rw [IndexSet.contains_without, Bool.and_eq_true, Bool.not_eq_true'] at hj
    have hadmits : m.Admits ⟨r.expected, j⟩ := ⟨others, hothers, hj.1⟩
    obtain ⟨q, hq, rfl⟩ := h.exists_of_admits hadmits
    have hqfree : q ∉ pairs.toList := by
      intro hmem
      have hcontains := (hstate.used_iff q.actual).mpr ⟨q, hmem, rfl⟩
      rw [hj.2] at hcontains
      cases hcontains
    rw [hforced q hq hqfree hadmits]
  rw [IndexSet.size_le_one_iff]
  intro i j hi hj
  rw [hpartner i hi, hpartner j hj]

end Candidates.OnlySolution

namespace Search

variable {s : Search} {R : Nat → Nat → Prop} {n : Nat} {all : List IndexPair}
  {pairs : Pairing} {matched used : IndexSet}

/-- From a part of the only solution the search goes on without a dead end. -/
theorem run_eq_ok_of_onlySolution (hs : s.Valid) (h : s.primary.OnlySolution R n all)
    (hstate : PartialAssignment s.primary pairs matched used) (hsub : pairs.toList ⊆ all)
    (deadEnds : Nat) :
    ∃ found, s.run pairs matched used deadEnds = .ok (some found, deadEnds) := by
  -- every pair made leaves one row less that is not matched
  induction hrank : s.primary.unmatched matched using Nat.strong_induction_on
    generalizing pairs matched used with
  | _ rank ih =>
      rw [run_eq]
      cases hnext : s.primary.nextRow matched used with
      | none => exact ⟨pairs, rfl⟩
      | some chosen =>
          obtain ⟨row, free⟩ := chosen
          obtain ⟨choice, hchoice, hmem⟩ :=
            hstate.exists_choice hs.rows_nodup hnext h.assigns hsub
          have hsingle := IndexSet.size_le_one_iff.mp (h.size_free_le_one hstate hsub hnext)
          have hnonempty : free.isEmpty = false := by
            by_contra hempty
            rw [Bool.not_eq_false] at hempty
            rw [IndexSet.contains_eq_false_of_isEmpty hempty] at hchoice
            cases hchoice
          obtain ⟨candidates, hrow, hunmatched, _⟩ := Candidates.nextRow_eq_some hnext
          have hlt : s.primary.unmatched (matched.insert row) < rank :=
            hrank ▸ Candidates.unmatched_insert_lt hrow hunmatched
          have hextended : (pairs.push ⟨row, choice⟩).toList ⊆ all := by
            rw [Pairing.toList_push]
            exact List.append_subset.mpr ⟨hsub, by simpa using hmem⟩
          obtain ⟨found, hfound⟩ := ih _ hlt (hstate.push hnext hchoice) hextended rfl
          refine ⟨found, ?_⟩
          simp only [hnonempty, Bool.false_eq_true, if_false]
          cases hchoices : s.choices free with
          | nil =>
              have hmem := (mem_choices hs hnext).mpr hchoice
              rw [hchoices] at hmem
              cases hmem
          | cons first rest =>
              have hfirst : first ∈ s.choices free := by simp [hchoices]
              have heq := hsingle first choice ((mem_choices hs hnext).mp hfirst) hchoice
              apply firstResult_cons_eq_some
              have hfresh := hstate.fresh hnext hchoice
              rw [heq, Pairing.add_eq_ok hfresh.1 hfresh.2, ok_bind]
              exact hfound

theorem solve_eq_ok_of_onlySolution (hs : s.Valid) (h : s.primary.OnlySolution R n all) :
    ∃ found, s.solve = .ok (some found) := by
  obtain ⟨found, hfound⟩ := run_eq_ok_of_onlySolution hs h
    (PartialAssignment.empty s.primary) (by simp) 0
  exact ⟨found, by rw [solve, hfound]; rfl⟩

end Search

/-- Whichever side leads, a problem with only one solution is solved under every limit. -/
theorem Compatibility.Represents.solve_eq_ok_of_onlyMatching
    {c : Compatibility} {R : Nat → Nat → Prop} {n : Nat} (h : c.Represents R n)
    {places : List (Nat × Nat)} (honly : OnlyMatching R (List.range n) (List.range n) places)
    (limit : Nat) : ∃ pairs, c.solve limit = .ok (some pairs) := by
  have hforward : c.forward.OnlySolution R n (places.map fun p => ⟨p.1, p.2⟩) := by
    refine ⟨h.forward_order, h.forward_admits, ?_, ?_⟩
    · intro i j hij
      exact (h.lt i j hij).2
    · simpa [IndexPair.toProd, Function.comp_def] using honly
  have hbackward : c.backward.OnlySolution (flip R) n (places.map fun p => ⟨p.2, p.1⟩) := by
    refine ⟨h.backward_order, h.backward_admits, ?_, ?_⟩
    · intro i j hij
      exact (h.lt j i hij).1
    · rw [List.map_map]
      exact honly.swap
  unfold solve
  split
  · obtain ⟨found, hfound⟩ := Search.solve_eq_ok_of_onlySolution (h.forward_valid limit) hforward
    refine ⟨found.toList, ?_⟩
    rw [hfound]
    rfl
  · obtain ⟨found, hfound⟩ :=
      Search.solve_eq_ok_of_onlySolution (h.backward_valid limit) hbackward
    refine ⟨found.swapped.toList, ?_⟩
    rw [hfound]
    rfl

/-! ## Rows with one way to pair them -/

section

variable {m : CellMatcher} {predicate actual : List Entry} {pairs : List (Entry × Entry)}

theorem pairPredicateRows_of_onlyMatching
    (honly : OnlyMatching m.Joins predicate actual pairs)
    (hpredicate : predicate.Nodup) (hactual : actual.Nodup)
    (hanswers : ∀ e ∈ predicate, ∀ a ∈ actual, ∃ b, m.rowsMatch e.row a.row = .ok b)
    (limit : Nat) :
    ∃ found, pairPredicateRows m limit predicate actual = .ok (some found) ∧
      found.Perm pairs := by
  have hmatchable : Matchable m.Joins predicate actual := ⟨pairs, honly.toPerfectMatching⟩
  obtain ⟨found, hfound⟩ : ∃ found,
      pairPredicateRows m limit predicate actual = .ok (some found) := by
    by_cases hne : predicate = []
    · exact ⟨[], by rw [hne, pairPredicateRows_nil]⟩
    · have hlength := honly.length_eq
      obtain ⟨matrix, hmatrix⟩ := exists_matrix_eq_ok hanswers
      obtain ⟨places, hplaces⟩ := honly.places hpredicate hactual
      rw [hlength] at hplaces
      obtain ⟨found, hsolve⟩ :=
        (matrix_represents hmatrix hlength).solve_eq_ok_of_onlyMatching hplaces limit
      have hcandidates := mt (not_matchable_of_anyEmpty hmatrix hlength) (not_not.mpr hmatchable)
      rw [pairPredicateRows_of_length_eq m limit hne hlength, hmatrix, ok_bind]
      dsimp only
      rw [if_neg hcandidates, hsolve]
      exact ⟨_, rfl⟩
  have hmatching := (pairPredicateRows_eq_ok hfound).2 hmatchable
  exact ⟨found, hfound, honly.perm_of_perfectMatching found hmatching⟩

end

/-- Where the rows with predicates can be paired with the actual rows left over in one way only,
they are paired in this way under every limit. -/
theorem matchAnyOrder_of_onlyMatching
    (m : CellMatcher) (expected actual : List Entry)
    (hexpected : (expected.map (·.index)).Nodup) (hactual : (actual.map (·.index)).Nodup)
    (hconcrete : ∀ a ∈ actual, a.row.hasPredicate = false) :
    ∃ literalPairs left,
      pairLiteralRows m (expected.filter fun e => !e.row.hasPredicate) actual =
        .ok (literalPairs, left) ∧
      ∀ pairs, OnlyMatching m.Joins (expected.filter fun e => e.row.hasPredicate) left pairs →
        ∀ limit, ∃ l predicatePairs, matchAnyOrder m limit expected actual = .ok l ∧
          predicatePairs.Perm pairs ∧
          l.toList = (literalPairs ++ predicatePairs).map fun p => p.1.pair p.2 := by
  have hanswers : ∀ e : Entry, ∀ a ∈ actual, ∃ b, m.rowsMatch e.row a.row = .ok b := by
    intro _ a ha
    exact CellMatcher.exists_rowsMatch_eq_ok (hconcrete a ha)
  obtain ⟨⟨literalPairs, left⟩, hliteral⟩ := exists_pairLiteralRows_eq_ok fun e _ => hanswers e
  refine ⟨literalPairs, left, hliteral, ?_⟩
  intro pairs honly limit
  have hsound := pairLiteralRows_sound hliteral
  have hleft : left.Sublist (literalPairs.map Prod.snd ++ left) := List.sublist_append_right _ _
  have hleftNodup : left.Nodup := hleft.nodup (hsound.2.nodup_iff.mpr hactual.of_map)
  have hanswers' : ∀ e ∈ expected.filter fun e => e.row.hasPredicate, ∀ a ∈ left,
      ∃ b, m.rowsMatch e.row a.row = .ok b := by
    intro e _ a ha
    exact hanswers e a (hsound.2.subset (hleft.subset ha))
  obtain ⟨predicatePairs, hpredicate, hperm⟩ := pairPredicateRows_of_onlyMatching honly
    (hexpected.of_map.filter _) hleftNodup hanswers' limit
  have hall := (hsound.1.append (pairPredicateRows_eq_ok hpredicate).1).perm
    (filter_hasPredicate_perm expected) hsound.2
  obtain ⟨l, hl⟩ := Pairing.ofList_eq_ok (distinct_map_pair hall hexpected hactual)
  refine ⟨l, predicatePairs, ?_, hperm, (Pairing.ofList_eq_ok_iff.mp hl).1⟩
  rw [matchAnyOrder_eq, hliteral, ok_bind]
  dsimp only
  rw [hpredicate, ok_bind, Option.getD_some]
  exact hl

namespace Entry

def anyValue : Entry := ⟨0, 0, ⟨[.predicate ⟨"any", Option.isSome⟩]⟩⟩

def testsTrue : Entry := ⟨1, 1, ⟨[.predicate ⟨"true", fun v => v.any (· == .boolean true)⟩]⟩⟩

def holds (index : Nat) (b : Bool) : Entry := ⟨index, index, ⟨[.literal (.boolean b)]⟩⟩

end Entry

/-- The row that takes any value has to leave the second `true` to the row that tests for it. -/
theorem matchAnyOrder_of_onlyMatching_testsTrue :
    ∃ l, matchAnyOrder (.positional .strict) 0 [.anyValue, .testsTrue, .holds 2 true]
          [.holds 0 true, .holds 1 false, .holds 2 true] = .ok l ∧
        l.toList.Perm [⟨2, 0⟩, ⟨1, 2⟩, ⟨0, 1⟩] := by
  obtain ⟨literalPairs, left, hliteral, hforced⟩ := matchAnyOrder_of_onlyMatching
    (.positional .strict) [.anyValue, .testsTrue, .holds 2 true]
    [.holds 0 true, .holds 1 false, .holds 2 true] (by decide) (by decide) (by decide)
  have hphase : pairLiteralRows (.positional .strict) [.holds 2 true]
      [.holds 0 true, .holds 1 false, .holds 2 true] =
        .ok ([(.holds 2 true, .holds 0 true)], [.holds 1 false, .holds 2 true]) := by
    cbv
  cases hliteral.symm.trans hphase
  have hany : (CellMatcher.positional .strict).Joins .anyValue (.holds 1 false) := by
    cbv
  have htrue : (CellMatcher.positional .strict).Joins .testsTrue (.holds 2 true) := by
    cbv
  have hfalse : (CellMatcher.positional .strict).rowsMatch Entry.testsTrue.row
      (Entry.holds 1 false).row = .ok false := by
    cbv
  have honly : OnlyMatching (CellMatcher.positional .strict).Joins [.anyValue, .testsTrue]
      [.holds 1 false, .holds 2 true]
      [(.testsTrue, .holds 2 true), (.anyValue, .holds 1 false)] := by
    refine (OnlyMatching.cons (.cons .nil hany (by simp)) htrue ?_).perm
      (List.Perm.swap _ _ _) (List.Perm.swap _ _ _)
    simp [CellMatcher.Joins, hfalse]
  obtain ⟨l, predicatePairs, hl, hperm, hlist⟩ := hforced _ honly 0
  refine ⟨l, hl, ?_⟩
  rw [hlist]
  exact (hperm.append_left _).map _

end TableDiff
