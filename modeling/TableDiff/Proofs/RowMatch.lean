import TableDiff.Rows
import TableDiff.Proofs.DiffLine
import TableDiff.Proofs.Fallible

/-!
# Verdicts that their lines back

A result is sound for two lists of indices when its lines show each index once, and when a positive
verdict means that every line joins two indices whose rows match.  Sound results of separate groups
of rows are sound together.
-/

namespace TableDiff

/-- The expected row at `i` matches the actual row at `j`. -/
def CellMatcher.MatchesAt (m : CellMatcher) (expected actual : Table) : Nat → Nat → Prop :=
  RelatedAt (fun e a => m.rowsMatch e a = .ok true) expected.rows actual.rows

namespace RowMatch

structure Sound (R : Nat → Nat → Prop) (expected actual : List Nat) (r : RowMatch) : Prop where
  covers : DiffLine.Covers r.lines expected actual
  joined : r.matched = true → ∀ line ∈ r.lines, ∃ i j, line = DiffLine.both i j ∧ R i j

variable {R : Nat → Nat → Prop} {expected expected' actual actual' : List Nat}
  {r r' : RowMatch}

namespace Sound

theorem nil : Sound R [] [] ⟨true, []⟩ where
  covers := .nil
  joined := by
    intro _ line hline
    cases hline

theorem append (h : Sound R expected actual r) (h' : Sound R expected' actual' r') :
    Sound R (expected ++ expected') (actual ++ actual') (r.append r') where
  covers := h.covers.append h'.covers
  joined := by
    intro hmatched line hline
    have hboth : r.matched = true ∧ r'.matched = true := by
      simpa [RowMatch.append] using hmatched
    rcases List.mem_append.mp hline with hline | hline
    · exact h.joined hboth.1 line hline
    · exact h'.joined hboth.2 line hline

theorem perm (h : Sound R expected actual r)
    (hexpected : expected.Perm expected') (hactual : actual.Perm actual') :
    Sound R expected' actual' r where
  covers := h.covers.perm hexpected hactual
  joined := h.joined

/-- A negative verdict needs nothing but lines that show all indices. -/
theorem of_unmatched {lines : List DiffLine} (h : DiffLine.Covers lines expected actual) :
    Sound R expected actual ⟨false, lines⟩ where
  covers := h
  joined := by
    intro hmatched
    cases hmatched

theorem perfectMatching (h : Sound R expected actual r) (hmatched : r.matched = true) :
    ∃ pairs, r.lines = pairs.map (fun p => DiffLine.both p.1 p.2) ∧
      PerfectMatching R expected actual pairs :=
  h.covers.perfectMatching (h.joined hmatched)

end Sound

/-! ## Rows in their order -/

theorem allRowsMatch_eq_ok_true_iff {m : CellMatcher} {rows : List (Row × Row)} :
    allRowsMatch m rows = .ok true ↔ ∀ p ∈ rows, m.rowsMatch p.1 p.2 = .ok true := by
  induction rows with
  | nil => simp [allRowsMatch]
  | cons p rows ih =>
      rw [allRowsMatch, bind_eq_ok_iff, List.forall_mem_cons, ← ih]
      constructor
      · intro h
        rcases h with ⟨matched, hmatched, hrest⟩
        cases matched with
        | true => exact ⟨hmatched, hrest⟩
        | false => cases hrest
      · intro h
        exact ⟨true, h.1, h.2⟩

theorem allRowsMatch_eq_error {m : CellMatcher} {rows : List (Row × Row)} {fault : MatchError}
    (h : allRowsMatch m rows = .error fault) :
    ∃ p ∈ rows, m.rowsMatch p.1 p.2 = .error fault := by
  induction rows with
  | nil => cases h
  | cons p rows ih =>
      rcases bind_eq_error_iff.mp h with hhead | ⟨matched, _, hrest⟩
      · exact ⟨p, List.mem_cons_self, hhead⟩
      · cases matched with
        | false => cases hrest
        | true =>
            obtain ⟨q, hq, hfault⟩ := ih hrest
            exact ⟨q, List.mem_cons_of_mem p hq, hfault⟩

theorem matchesAt_self_of_allRowsMatch {m : CellMatcher} {s t : Table}
    (h : allRowsMatch m (s.rows.zip t.rows) = .ok true)
    (hlength : s.rows.length = t.rows.length) {i : Nat} (hi : i < s.rows.length) :
    m.MatchesAt s t i i := by
  have hit : i < t.rows.length := by omega
  have hmem : (s.rows[i], t.rows[i]) ∈ s.rows.zip t.rows := by
    apply List.mem_of_getElem? (i := i)
    rw [List.getElem?_zip_eq_some]
    exact ⟨List.getElem?_eq_getElem hi, List.getElem?_eq_getElem hit⟩
  have hjoined := allRowsMatch_eq_ok_true_iff.mp h _ hmem
  exact ⟨s.rows[i], t.rows[i], List.getElem?_eq_getElem hi,
    List.getElem?_eq_getElem hit, hjoined⟩

theorem ordered_eq_ok {m : CellMatcher} {s t : Table} (h : ordered m s t = .ok r) :
    r.lines = DiffLine.positional s.rows.length t.rows.length ∧
      (r.matched = true ↔ s.rows.length = t.rows.length ∧
        allRowsMatch m (s.rows.zip t.rows) = .ok true) := by
  unfold ordered at h
  dsimp only at h
  split at h
  · next hlength =>
    rcases bind_eq_ok_iff.mp h with ⟨matched, hrows, hpure⟩
    cases hpure
    rw [hrows]
    simp [hlength]
  · next hlength =>
    cases h
    simp [hlength]

theorem ordered_eq_error {m : CellMatcher} {s t : Table} {fault : MatchError}
    (h : ordered m s t = .error fault) :
    ∃ e ∈ s.rows, ∃ a ∈ t.rows, m.rowsMatch e a = .error fault := by
  unfold ordered at h
  dsimp only at h
  split at h
  · rcases bind_eq_error_iff.mp h with hrows | ⟨matched, _, hpure⟩
    · obtain ⟨p, hp, hfault⟩ := allRowsMatch_eq_error hrows
      obtain ⟨he, ha⟩ := List.of_mem_zip hp
      exact ⟨p.1, he, p.2, ha, hfault⟩
    · cases hpure
  · cases h

theorem ordered_lines_of_matched {m : CellMatcher} {s t : Table}
    (h : ordered m s t = .ok r) (hmatched : r.matched = true) :
    r.lines = (List.range s.rows.length).map fun i => DiffLine.both i i := by
  have hresult := ordered_eq_ok h
  have hlength := (hresult.2.mp hmatched).1
  rw [hresult.1, ← hlength]
  exact DiffLine.positional_self s.rows.length

theorem ordered_sound {m : CellMatcher} {s t : Table} (h : ordered m s t = .ok r) :
    r.Sound (m.MatchesAt s t) (List.range s.rows.length) (List.range t.rows.length) where
  covers := by
    rw [(ordered_eq_ok h).1]
    exact DiffLine.covers_positional _ _
  joined := by
    intro hmatched line hline
    have hrows := (ordered_eq_ok h).2.mp hmatched
    rw [ordered_lines_of_matched h hmatched] at hline
    rcases List.mem_map.mp hline with ⟨i, hi, rfl⟩
    have hi := List.mem_range.mp hi
    exact ⟨i, i, rfl, matchesAt_self_of_allRowsMatch hrows.2 hrows.1 hi⟩

end RowMatch

end TableDiff
