import TableDiff.Proofs.AnyOrder.Verdict

/-!
# Greedy pairing from either side

In greedy pairing both sides are asked in their order, and it makes no difference which side asks:
the first of the one side takes the first of the other that it matches, and that one, asked itself,
would find nobody earlier.  So the pairs are the same from either side, in another order, and rows
without predicates are lined up in the same way when the two sides are exchanged.
-/

namespace TableDiff

section

variable {m : CellMatcher} {e : Entry} {expected available left : List Entry}
  {pairs : List (Entry × Entry)}

theorem pairGreedily_nil (m : CellMatcher) (expected : List Entry) :
    pairGreedily m expected [] = .ok ([], []) := by
  induction expected with
  | nil => rfl
  | cons e expected ih => rw [pairGreedily_cons_of_none rfl, ih]

/-- An entry that nobody matches is left over. -/
theorem pairGreedily_cons_available (hnone : ∀ x ∈ expected, m.rowsMatch x.row e.row = .ok false)
    (h : pairGreedily m expected available = .ok (pairs, left)) :
    pairGreedily m expected (e :: available) = .ok (pairs, e :: left) := by
  induction expected generalizing available pairs with
  | nil =>
      cases h
      rfl
  | cons x expected ih =>
      rw [List.forall_mem_cons] at hnone
      rcases pairGreedily_cons_eq_ok h with ⟨a, others, rest, htake, hrec, rfl⟩ | ⟨htake, hrec⟩
      · exact pairGreedily_cons_of_some (takeMatch_cons_of_not_matches hnone.1 htake)
          (ih hnone.2 hrec)
      · rw [pairGreedily_cons_of_none (takeMatch_cons_of_not_matches hnone.1 htake)]
        exact ih hnone.2 hrec

/-- An entry at the head is taken by the first that matches it, and nothing changes for the
others. -/
theorem exists_pairGreedily_append_cons {a : Entry} {before after : List Entry}
    (hbefore : ∀ b ∈ before, m.rowsMatch b.row e.row = .ok false)
    (ha : m.rowsMatch a.row e.row = .ok true)
    (h : pairGreedily m (before ++ after) available = .ok (pairs, left)) :
    ∃ pairs', pairGreedily m (before ++ a :: after) (e :: available) = .ok (pairs', left) ∧
      pairs'.Perm ((a, e) :: pairs) := by
  induction before generalizing available pairs with
  | nil => exact ⟨_, pairGreedily_cons_of_some (takeMatch_cons_of_matches ha) h, .refl _⟩
  | cons b before ih =>
      rw [List.forall_mem_cons] at hbefore
      rcases pairGreedily_cons_eq_ok h with ⟨x, others, rest, htake, hrec, rfl⟩ | ⟨htake, hrec⟩
      · obtain ⟨pairs', hpairs', hperm⟩ := ih hbefore.2 hrec
        have htake' := takeMatch_cons_of_not_matches hbefore.1 htake
        exact ⟨_, pairGreedily_cons_of_some htake' hpairs',
          (hperm.cons (b, x)).trans (List.Perm.swap _ _ _)⟩
      · obtain ⟨pairs', hpairs', hperm⟩ := ih hbefore.2 hrec
        refine ⟨pairs', ?_, hperm⟩
        rw [List.cons_append,
          pairGreedily_cons_of_none (takeMatch_cons_of_not_matches hbefore.1 htake)]
        exact hpairs'

end

section

variable {m m' : CellMatcher} {expected actual left : List Entry} {pairs : List (Entry × Entry)}

/-- The second matcher answers for two entries, exchanged, what the first one answers. -/
def CellMatcher.Reverses (m m' : CellMatcher) (expected actual : List Entry) : Prop :=
  ∀ e ∈ expected, ∀ a ∈ actual, m'.rowsMatch a.row e.row = m.rowsMatch e.row a.row

theorem CellMatcher.Reverses.mono {expected' actual' : List Entry}
    (h : m.Reverses m' expected actual) (hexpected : expected' ⊆ expected)
    (hactual : actual' ⊆ actual) : m.Reverses m' expected' actual' := by
  intro e he a ha
  exact h e (hexpected he) a (hactual ha)

/-- Greedy pairing finds the same pairs from either side. -/
theorem exists_pairGreedily_swap (hreverses : m.Reverses m' expected actual)
    (h : pairGreedily m expected actual = .ok (pairs, left)) :
    ∃ pairs' left', pairGreedily m' actual expected = .ok (pairs', left') ∧
      pairs'.Perm (pairs.map Prod.swap) := by
  induction expected generalizing actual pairs left with
  | nil =>
      cases h
      exact ⟨[], [], pairGreedily_nil m' actual, .refl _⟩
  | cons e expected ih =>
      have hhead : ∀ a ∈ actual, m'.rowsMatch a.row e.row = m.rowsMatch e.row a.row :=
        hreverses e List.mem_cons_self
      rcases pairGreedily_cons_eq_ok h with ⟨a, others, rest, htake, hrec, rfl⟩ | ⟨htake, hrec⟩
      · -- from the other side, those before `a` pass over `e`, and `a` takes it
        obtain ⟨before, after, rfl, rfl, hmatch, hbefore⟩ := exists_split_of_takeMatch htake
        have hsub := ((List.sublist_cons_self a after).append_left before).subset
        obtain ⟨pairs', left', hpairs', hperm⟩ :=
          ih (hreverses.mono (List.subset_cons_self _ _) hsub) hrec
        have hskip : ∀ b ∈ before, m'.rowsMatch b.row e.row = .ok false := by
          intro b hb
          rw [hhead b (List.mem_append_left _ hb)]
          exact hbefore b hb
        have htake : m'.rowsMatch a.row e.row = .ok true := by
          rw [hhead a (by simp)]
          exact hmatch
        obtain ⟨pairs'', hpairs'', hperm'⟩ :=
          exists_pairGreedily_append_cons hskip htake hpairs'
        exact ⟨pairs'', left', hpairs'', hperm'.trans (hperm.cons (a, e))⟩
      · obtain ⟨pairs', left', hpairs', hperm⟩ :=
          ih (hreverses.mono (List.subset_cons_self _ _) (List.Subset.refl _)) hrec
        have hnone : ∀ a ∈ actual, m'.rowsMatch a.row e.row = .ok false := by
          intro a ha
          exact (hhead a ha).trans (takeMatch_eq_none htake a ha)
        exact ⟨pairs', e :: left', pairGreedily_cons_available hnone hpairs', hperm⟩

theorem exists_pairLiteralRows_swap (hreverses : m.Reverses m' expected actual)
    (h : pairLiteralRows m expected actual = .ok (pairs, left)) :
    ∃ pairs' left', pairLiteralRows m' actual expected = .ok (pairs', left') ∧
      pairs'.Perm (pairs.map Prod.swap) := by
  obtain ⟨rest, hgreedy, _⟩ := pairLiteralRows_eq_ok h
  have hordered := hreverses.mono (canonicalOrder_perm expected).subset
    (canonicalOrder_perm actual).subset
  obtain ⟨pairs', rest', hgreedy', hperm⟩ := exists_pairGreedily_swap hordered hgreedy
  exact ⟨pairs', _, by rw [pairLiteralRows, hgreedy']; rfl, hperm⟩

/-- Rows without predicates are paired alike from either side. -/
theorem exists_matchAnyOrder_swap {limit : Nat} (limit' : Nat) {l : Pairing}
    (hreverses : m.Reverses m' expected actual)
    (hexpected : ∀ e ∈ expected, e.row.hasPredicate = false)
    (hactual : ∀ a ∈ actual, a.row.hasPredicate = false)
    (h : matchAnyOrder m limit expected actual = .ok l) :
    ∃ l', matchAnyOrder m' limit' actual expected = .ok l' ∧
      l'.toList.Perm (l.toList.map IndexPair.swap) := by
  have hdistinct := (matchAnyOrder_sound h).1
  rw [matchAnyOrder_of_literal m limit actual hexpected] at h
  obtain ⟨⟨pairs, left⟩, hliteral, hlist⟩ := bind_eq_ok_iff.mp h
  have htoList := (Pairing.ofList_eq_ok_iff.mp hlist).1
  obtain ⟨pairs', left', hliteral', hperm⟩ := exists_pairLiteralRows_swap hreverses hliteral
  have hswapped : (pairs'.map fun p => p.1.pair p.2).Perm (l.toList.map IndexPair.swap) := by
    rw [htoList, List.map_map]
    refine (hperm.map _).trans (.of_eq ?_)
    rw [List.map_map]
    rfl
  obtain ⟨l', hl'⟩ := Pairing.ofList_eq_ok (hdistinct.swap.perm hswapped.symm)
  refine ⟨l', ?_, (Pairing.ofList_eq_ok_iff.mp hl').1 ▸ hswapped⟩
  rw [matchAnyOrder_of_literal m' limit' expected hactual, hliteral', ok_bind]
  exact hl'

end

namespace RowMatch

/-- The same verdict, and the same lines with their sides exchanged. -/
structure Mirrors (r r' : RowMatch) : Prop where
  matched : r'.matched = r.matched
  lines : r'.lines.Perm (r.lines.map DiffLine.swap)

variable {m m' : CellMatcher} {limit limit' : Nat} {expected actual : List Entry} {r r' : RowMatch}

theorem anyOrder_mirrors (hreverses : m.Reverses m' expected actual)
    (hexpected : ∀ e ∈ expected, e.row.hasPredicate = false)
    (hactual : ∀ a ∈ actual, a.row.hasPredicate = false)
    (hnodup : (expected.map (·.index)).Nodup) (hnodup' : (actual.map (·.index)).Nodup)
    (h : anyOrder m limit expected actual = .ok r)
    (h' : anyOrder m' limit' actual expected = .ok r') : r.Mirrors r' := by
  obtain ⟨l, hl, hlines, hmatched⟩ := anyOrder_eq_ok h
  obtain ⟨l', hl', hlines', hmatched'⟩ := anyOrder_eq_ok h'
  obtain ⟨l'', hl'', hperm⟩ :=
    exists_matchAnyOrder_swap limit' hreverses hexpected hactual hl
  cases hl''.symm.trans hl'
  have hlinesPerm : r'.lines.Perm (r.lines.map DiffLine.swap) := by
    rw [hlines, hlines']
    exact Pairing.aligned_perm_map_swap (matchAnyOrder_sound hl).1 hperm hnodup hnodup'
      (expected_mem_of_matchAnyOrder hl) (actual_mem_of_matchAnyOrder hl)
  refine ⟨?_, hlinesPerm⟩
  rw [hmatched, hmatched', hlinesPerm.all_eq, List.all_map]
  congr 1
  funext line
  exact Bool.and_comm _ _

end RowMatch

end TableDiff
