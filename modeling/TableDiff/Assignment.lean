import TableDiff.IndexSet
import TableDiff.Pairing
import TableDiff.Sorting

/-!
# Assigning partners under a budget of dead ends

Every row of one side, the primary side, has a set of candidates on the other.  An assignment gives
each primary row one of its candidates and no candidate to two rows.  The search branches on a row
with the fewest candidates left and tries them from the most constrained one on.  A row without any
is a dead end; when the dead ends reach the limit the search is given up.
-/

namespace TableDiff

/-- The candidates of each row, rows with few candidates first; rows with equally many candidates
keep their order. -/
structure Candidates where
  rows : List (Nat × IndexSet)

namespace Candidates

/-- Row `i` has the `i`-th set as its candidates. -/
def ofSets (sets : List IndexSet) : Candidates :=
  ⟨sortBy (compareOn (·.2.size)) (sets.zipIdx.map fun (set, row) => (row, set))⟩

def anyEmpty (m : Candidates) : Bool := m.rows.any (·.2.isEmpty)

/-- The least number of candidates of a row; zero if there is no row. -/
def fewest (m : Candidates) : Nat :=
  match m.rows with
  | [] => 0
  | (_, candidates) :: _ => candidates.size

def order (m : Candidates) : List Nat := m.rows.map (·.1)

/-- Goes through rows that are not matched yet for one with fewer free candidates than `best`.  A
row without any is taken at once. -/
def selectRow (matched used : IndexSet) (best : Option (Nat × IndexSet)) :
    List (Nat × IndexSet) → Option (Nat × IndexSet)
  | [] => best
  | (row, candidates) :: rest =>
    if matched.contains row then selectRow matched used best rest
    else
      let free := candidates.without used
      if free.isEmpty then some (row, free)
      else if best.all fun b => decide (free.size < b.2.size) then
        selectRow matched used (some (row, free)) rest
      else selectRow matched used best rest

/-- The unmatched row with the fewest free candidates, the first one in order, with those
candidates; `none` when all rows are matched. -/
def nextRow (m : Candidates) (matched used : IndexSet) : Option (Nat × IndexSet) :=
  selectRow matched used none m.rows

/-- The number of rows that are not matched yet. -/
def unmatched (m : Candidates) (matched : IndexSet) : Nat :=
  m.rows.countP fun r => !matched.contains r.1

theorem selectRow_eq_some {matched used : IndexSet} {best : Option (Nat × IndexSet)}
    {rows : List (Nat × IndexSet)} {row : Nat} {free : IndexSet}
    (h : selectRow matched used best rows = some (row, free)) :
    best = some (row, free) ∨
      ∃ candidates, (row, candidates) ∈ rows ∧ matched.contains row = false ∧
        free = candidates.without used := by
  induction rows generalizing best with
  | nil => exact .inl h
  | cons r rows ih =>
    obtain ⟨head, candidates⟩ := r
    have later : ∀ {best}, selectRow matched used best rows = some (row, free) →
        best = some (row, free) ∨ ∃ candidates', (row, candidates') ∈ (head, candidates) :: rows ∧
          matched.contains row = false ∧ free = candidates'.without used := by
      intro best hrest
      rcases ih hrest with hbest | ⟨candidates', hmem, hfree⟩
      · exact .inl hbest
      · exact .inr ⟨candidates', List.mem_cons_of_mem _ hmem, hfree⟩
    unfold selectRow at h
    split at h
    · exact later h
    · next hhead =>
      have here : some (head, candidates.without used) = some (row, free) →
          ∃ candidates', (row, candidates') ∈ (head, candidates) :: rows ∧
            matched.contains row = false ∧ free = candidates'.without used := by
        intro heq
        cases heq
        exact ⟨_, List.mem_cons_self, by simpa using hhead, rfl⟩
      dsimp only at h
      split at h
      · exact .inr (here h)
      · split at h
        · exact .inr ((later h).elim here id)
        · exact later h

/-- The chosen row is not matched, and it comes with its free candidates. -/
theorem nextRow_eq_some {m : Candidates} {matched used : IndexSet} {row : Nat}
    {free : IndexSet} (h : m.nextRow matched used = some (row, free)) :
    ∃ candidates, (row, candidates) ∈ m.rows ∧ matched.contains row = false ∧
      free = candidates.without used := by
  rcases selectRow_eq_some h with h | h
  · cases h
  · exact h

theorem unmatched_insert_lt {m : Candidates} {matched : IndexSet} {row : Nat}
    {candidates : IndexSet} (hr : (row, candidates) ∈ m.rows)
    (hfree : matched.contains row = false) :
    m.unmatched (matched.insert row) < m.unmatched matched := by
  unfold unmatched
  generalize m.rows = rows at hr
  induction rows with
  | nil => cases hr
  | cons s rows ih =>
    have hle : ∀ t : Nat × IndexSet,
        (!(matched.insert row).contains t.1) = true → (!matched.contains t.1) = true := by
      intro t ht
      simp_all [IndexSet.contains_insert]
    have hrest := List.countP_mono_left fun t (_ : t ∈ rows) => hle t
    rw [List.countP_cons, List.countP_cons]
    rcases List.mem_cons.1 hr with rfl | hr
    · rw [if_neg (by simp [IndexSet.contains_insert]), if_pos (by simp [hfree])]
      omega
    · have hlt := ih hr
      by_cases hs : (!(matched.insert row).contains s.1) = true
      · rw [if_pos hs, if_pos (hle s hs)]
        omega
      · rw [if_neg hs]
        omega

end Candidates

/-- Tries choices in turn until one leads to a result; the dead ends of failed ones add up. -/
def firstResult {α : Type} (attempt : Nat → Nat → Except MatchError (Option α × Nat)) :
    (choices : List Nat) → (deadEnds : Nat) → Except MatchError (Option α × Nat)
  | [], deadEnds => .ok (none, deadEnds)
  | choice :: choices, deadEnds =>
    match attempt choice deadEnds with
    | .ok (none, deadEnds) => firstResult attempt choices deadEnds
    | result => result

/-- What a search is given: the candidates of the primary rows, the order in which candidates are
tried, and the number of dead ends at which it is given up. -/
structure Search where
  primary : Candidates
  secondaryOrder : List Nat
  limit : Nat

namespace Search

/-- The free candidates of a row in the order in which they are tried. -/
def choices (s : Search) (free : IndexSet) : List Nat := s.secondaryOrder.filter free.contains

/-- Extends a list of pairs to all primary rows, after `deadEnds` dead ends.  `matched` holds the
rows and `used` the candidates that are paired already.  Gives the pairs, or `none` if there is no
extension, and the dead ends met so far. -/
def run (s : Search) (pairs : Pairing) (matched used : IndexSet) (deadEnds : Nat) :
    Except MatchError (Option Pairing × Nat) :=
  match h : s.primary.nextRow matched used with
  | none => .ok (some pairs, deadEnds)
  | some (row, free) =>
    if free.isEmpty then
      if s.limit ≤ deadEnds + 1 then .error (.tooManyPermutations s.limit)
      else .ok (none, deadEnds + 1)
    else
      firstResult (fun choice deadEnds => do
        let extended ← pairs.add ⟨row, choice⟩
        s.run extended (matched.insert row) (used.insert choice) deadEnds)
        (s.choices free) deadEnds
termination_by s.primary.unmatched matched
decreasing_by
  obtain ⟨candidates, hrow, hfree, _⟩ := Candidates.nextRow_eq_some h
  exact Candidates.unmatched_insert_lt hrow hfree

/-- A complete assignment as pairs of a primary and a secondary row. -/
def solve (s : Search) : Except MatchError (Option Pairing) := do
  let (found, _) ← s.run .empty .empty .empty 0
  return found

end Search

end TableDiff
