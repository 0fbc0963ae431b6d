import TableDiff.Proofs.Assignment

/-!
# The row that a search branches on

The rows of an assignment problem are kept in the order of the number of their candidates.  A search
goes through them in this order for an unmatched row with the fewest candidates left, and stops at
the first row that has none.  Either way it finds the first one of the most constrained rows.
-/

namespace TableDiff

namespace Candidates

variable {sets : List IndexSet} {matched used : IndexSet} {rows : List (Nat × IndexSet)}
  {row : Nat} {free : IndexSet}

/-- The row stands in the list, and every unmatched row before it has more free candidates. -/
def StandsFirst (matched used : IndexSet) (rows : List (Nat × IndexSet)) (row : Nat)
    (free : IndexSet) : Prop :=
  ∃ before candidates after, rows = before ++ (row, candidates) :: after ∧
    free = candidates.without used ∧
    ∀ r ∈ before, matched.contains r.1 = false → free.size < (r.2.without used).size

namespace StandsFirst

theorem head (r : Nat × IndexSet) :
    StandsFirst matched used (r :: rows) r.1 (r.2.without used) := by
  refine ⟨[], r.2, rows, rfl, rfl, ?_⟩
  intro _ hr
  cases hr

theorem cons (h : StandsFirst matched used rows row free) {r : Nat × IndexSet}
    (hr : matched.contains r.1 = false → free.size < (r.2.without used).size) :
    StandsFirst matched used (r :: rows) row free := by
  obtain ⟨before, candidates, after, rfl, hfree, hbefore⟩ := h
  exact ⟨r :: before, candidates, after, rfl, hfree, List.forall_mem_cons.mpr ⟨hr, hbefore⟩⟩

end StandsFirst

/-- What is chosen is the best so far, or has fewer free candidates than that and stands first. -/
theorem standsFirst_of_selectRow {best : Option (Nat × IndexSet)}
    (hbest : ∀ b, best = some b → 0 < b.2.size)
    (h : selectRow matched used best rows = some (row, free)) :
    best = some (row, free) ∨ StandsFirst matched used rows row free ∧
      ∀ b, best = some b → free.size < b.2.size := by
  induction rows generalizing best with
  | nil => exact .inl h
  | cons r rows ih =>
      unfold selectRow at h
      split at h
      · next hmatched =>
        rcases ih hbest h with heq | ⟨hfirst, hless⟩
        · exact .inl heq
        · refine .inr ⟨hfirst.cons ?_, hless⟩
          intro hfree
          rw [hmatched] at hfree
          cases hfree
      · dsimp only at h
        split at h
        · next hempty =>
          cases h
          refine .inr ⟨.head r, ?_⟩
          intro b hb
          rw [IndexSet.size_eq_zero_of_isEmpty hempty]
          exact hbest b hb
        · next hnonempty =>
          split at h
          · next hbetter =>
            have hlt : ∀ b, best = some b → (r.2.without used).size < b.2.size := by
              rintro b rfl
              simpa using hbetter
            have hpos : ∀ b, some (r.1, r.2.without used) = some b → 0 < b.2.size := by
              rintro b ⟨rfl⟩
              exact IndexSet.size_pos_iff.mpr (by simpa using hnonempty)
            rcases ih hpos h with heq | ⟨hfirst, hless⟩
            · cases heq
              exact .inr ⟨.head r, hlt⟩
            · have hmore := hless _ rfl
              right
              constructor
              · apply hfirst.cons
                intro _
                exact hmore
              · intro b hb
                exact hmore.trans (hlt b hb)
          · next hworse =>
            rcases ih hbest h with heq | ⟨hfirst, hless⟩
            · exact .inl heq
            · refine .inr ⟨hfirst.cons ?_, hless⟩
              intro _
              cases best with
              | none => simp at hworse
              | some b =>
                  have hge : b.2.size ≤ (r.2.without used).size := by simpa using hworse
                  exact (hless b rfl).trans_le hge

/-- Rows are ordered by the number of their candidates, and by their own number where these are
equally many. -/
theorem pairwise_rows_ofSets (sets : List IndexSet) :
    (ofSets sets).rows.Pairwise fun r r' =>
      r.2.size < r'.2.size ∨ r.2.size = r'.2.size ∧ r.1 < r'.1 := by
  have hplaces : (sets.zipIdx.map fun r => (r.2, r.1)).Pairwise fun r r' => r.1 < r'.1 := by
    rw [List.pairwise_map]
    have hrange : (sets.zipIdx.map (·.2)).Pairwise (· < ·) := by
      rw [List.zipIdx_map_snd]
      exact List.pairwise_lt_range'
    exact List.pairwise_map.mp hrange
  exact pairwise_sortBy_key (·.2.size) hplaces

/-- An unmatched row with the fewest free candidates; among these rows the one with the fewest
candidates at all, and among those the one with the lowest number. -/
structure MostConstrained (sets : List IndexSet) (matched used : IndexSet) (row : Nat)
    (candidates : IndexSet) : Prop where
  getElem? : sets[row]? = some candidates
  unmatched : matched.contains row = false
  fewest : ∀ i other, sets[i]? = some other → matched.contains i = false →
    (candidates.without used).size ≤ (other.without used).size
  first : ∀ i other, sets[i]? = some other → matched.contains i = false →
    (other.without used).size = (candidates.without used).size →
    candidates.size < other.size ∨ candidates.size = other.size ∧ row ≤ i

theorem MostConstrained.unique {row' : Nat} {candidates candidates' : IndexSet}
    (h : MostConstrained sets matched used row candidates)
    (h' : MostConstrained sets matched used row' candidates') : row = row' := by
  have hle := h.fewest row' candidates' h'.getElem? h'.unmatched
  have hge := h'.fewest row candidates h.getElem? h.unmatched
  have hfirst := h.first row' candidates' h'.getElem? h'.unmatched (by omega)
  have hfirst' := h'.first row candidates h.getElem? h.unmatched (by omega)
  omega

theorem mostConstrained_of_nextRow (h : (ofSets sets).nextRow matched used = some (row, free)) :
    ∃ candidates, MostConstrained sets matched used row candidates ∧
      free = candidates.without used := by
  have hfewest := size_le_of_nextRow_eq_some h
  obtain ⟨_, _, hunmatched, _⟩ := nextRow_eq_some h
  have hselect : selectRow matched used none (ofSets sets).rows = some (row, free) := h
  obtain ⟨before, candidates, after, hrows, rfl, hbefore⟩ :
      StandsFirst matched used (ofSets sets).rows row free := by
    rcases standsFirst_of_selectRow (by simp) hselect with hnone | hfirst
    · cases hnone
    · exact hfirst.1
  have hmem : ∀ i other, sets[i]? = some other →
      (i, other) ∈ before ++ (row, candidates) :: after := by
    intro i other hi
    exact hrows ▸ mem_rows_ofSets.mpr hi
  have horder := pairwise_rows_ofSets sets
  rw [hrows, List.pairwise_append, List.pairwise_cons] at horder
  refine ⟨candidates, ⟨?_, hunmatched, ?_, ?_⟩, rfl⟩
  · exact mem_rows_ofSets.mp (hrows ▸ List.mem_append_right _ List.mem_cons_self)
  · intro i other hi
    exact hfewest (i, other) (mem_rows_ofSets.mpr hi)
  · intro i other hi hifree heq
    rcases List.mem_append.mp (hmem i other hi) with hearlier | hlater
    · exact absurd heq (hbefore (i, other) hearlier hifree).ne'
    · rcases List.mem_cons.mp hlater with hsame | hafter
      · cases hsame
        exact .inr ⟨rfl, le_rfl⟩
      · rcases horder.2.1.1 (i, other) hafter with hsize | ⟨hsize, hlt⟩
        · exact .inl hsize
        · exact .inr ⟨hsize, hlt.le⟩

theorem nextRow_ofSets_eq_none_iff :
    (ofSets sets).nextRow matched used = none ↔ ∀ i < sets.length, matched.contains i = true := by
  constructor
  · intro h i hi
    have hrow : (i, sets[i]) ∈ (ofSets sets).rows :=
      mem_rows_ofSets.mpr (List.getElem?_eq_getElem hi)
    exact matched_of_nextRow_eq_none h _ hrow
  · intro h
    rw [Option.eq_none_iff_forall_ne_some]
    rintro ⟨row, free⟩ hnext
    obtain ⟨candidates, hrow, hunmatched, _⟩ := nextRow_eq_some hnext
    have hlt := (List.getElem?_eq_some_iff.mp (mem_rows_ofSets.mp hrow)).1
    rw [h row hlt] at hunmatched
    cases hunmatched

/-- The search branches on the most constrained row, with the candidates that are free; there is
none if all rows are matched.  The order of the rows is by the number of their candidates and then
by their own number. -/
theorem nextRow_ofSets (sets : List IndexSet) (matched used : IndexSet) :
    ((ofSets sets).nextRow matched used = none ↔
        ∀ i < sets.length, matched.contains i = true) ∧
      (∀ row free, (ofSets sets).nextRow matched used = some (row, free) ↔
        ∃ candidates, MostConstrained sets matched used row candidates ∧
          free = candidates.without used) ∧
      ((∀ row candidates, (row, candidates) ∈ (ofSets sets).rows ↔ sets[row]? = some candidates) ∧
        (ofSets sets).rows.Pairwise fun r r' =>
          r.2.size < r'.2.size ∨ r.2.size = r'.2.size ∧ r.1 < r'.1) := by
  refine ⟨nextRow_ofSets_eq_none_iff, ?_, ?_, pairwise_rows_ofSets sets⟩
  · intro row free
    constructor
    · exact mostConstrained_of_nextRow
    rintro ⟨candidates, hrow, rfl⟩
    cases hnext : (ofSets sets).nextRow matched used with
    | none =>
        have hlt := (List.getElem?_eq_some_iff.mp hrow.getElem?).1
        have hmatched := nextRow_ofSets_eq_none_iff.mp hnext row hlt
        rw [hrow.unmatched] at hmatched
        cases hmatched
    | some chosen =>
        obtain ⟨row', free⟩ := chosen
        obtain ⟨candidates', hrow', rfl⟩ := mostConstrained_of_nextRow hnext
        obtain rfl := hrow.unique hrow'
        obtain rfl : candidates = candidates' :=
          Option.some.inj (hrow.getElem?.symm.trans hrow'.getElem?)
        rfl
  · intro _ _
    exact mem_rows_ofSets

end Candidates
end TableDiff
