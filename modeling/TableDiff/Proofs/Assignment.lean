import TableDiff.Assignment
import TableDiff.Proofs.Fallible
import TableDiff.Proofs.IndexSet
import TableDiff.Proofs.Pairing

/-!
# The search finds an assignment or shows that there is none

Within its limit the search answers correctly, whatever row it branches on and in whatever order it
tries candidates.  Its two sets always hold the rows and candidates of the pairs made so far, so a
pair that it adds never uses an index again.  A complete assignment that extends these pairs gives
the next row one of its free candidates; hence no extension is missed when all of them fail.
-/

namespace TableDiff

namespace Candidates

/-! ## The rows -/

theorem rows_ofSets_perm (sets : List IndexSet) :
    (ofSets sets).rows.Perm (sets.zipIdx.map fun (set, row) => (row, set)) :=
  sortBy_perm _ _

theorem order_ofSets_perm (sets : List IndexSet) :
    (ofSets sets).order.Perm (List.range sets.length) := by
  have h := (rows_ofSets_perm sets).map (·.1)
  rw [List.map_map] at h
  refine h.trans ?_
  have hsnd : (sets.zipIdx.map ((·.1) ∘ fun (set, row) => (row, set))) =
      sets.zipIdx.map (·.2) := rfl
  rw [hsnd, List.zipIdx_map_snd, List.range_eq_range']

theorem mem_rows_ofSets {i : Nat} {set : IndexSet} :
    (i, set) ∈ (ofSets sets).rows ↔ sets[i]? = some set := by
  rw [(rows_ofSets_perm sets).mem_iff, List.mem_map]
  constructor
  · rintro ⟨⟨set', i'⟩, hmem, heq⟩
    cases heq
    exact List.mk_mem_zipIdx_iff_getElem?.mp hmem
  · intro h
    exact ⟨(set, i), List.mk_mem_zipIdx_iff_getElem?.mpr h, rfl⟩

theorem nodup_order {m : Candidates} {n : Nat} (h : m.order.Perm (List.range n)) :
    (m.rows.map (·.1)).Nodup :=
  h.nodup_iff.mpr List.nodup_range

/-! ## Complete assignments -/

def Admits (m : Candidates) (p : IndexPair) : Prop :=
  ∃ candidates, (p.expected, candidates) ∈ m.rows ∧ candidates.contains p.actual = true

/-- Every row is paired with one of its candidates, and no candidate with two rows. -/
structure Assigns (m : Candidates) (pairs : List IndexPair) : Prop where
  distinct : Pairing.Distinct pairs
  admits : ∀ p ∈ pairs, m.Admits p
  complete : ∀ r ∈ m.rows, ∃ p ∈ pairs, p.expected = r.1

theorem selectRow_eq_none
    {matched used : IndexSet} {best : Option (Nat × IndexSet)}
    {rows : List (Nat × IndexSet)}
    (h : selectRow matched used best rows = none) :
    best = none ∧ ∀ r ∈ rows, matched.contains r.1 = true := by
  induction rows generalizing best with
  | nil =>
      refine ⟨h, ?_⟩
      intro _ hr
      cases hr
  | cons r rows ih =>
      unfold selectRow at h
      split at h
      · next hmatched =>
        have hrest := ih h
        exact ⟨hrest.1, List.forall_mem_cons.mpr ⟨hmatched, hrest.2⟩⟩
      · dsimp only at h
        split at h
        · cases h
        · split at h
          · cases (ih h).1
          · next hbest =>
            rw [(ih h).1] at hbest
            simp at hbest

/-- No row that is looked at has fewer free candidates than the chosen one. -/
theorem size_le_of_selectRow_eq_some
    {matched used : IndexSet} {best : Option (Nat × IndexSet)} {rows : List (Nat × IndexSet)}
    {row : Nat} {free : IndexSet} (h : selectRow matched used best rows = some (row, free)) :
    (∀ b, best = some b → free.size ≤ b.2.size) ∧
      ∀ r ∈ rows, matched.contains r.1 = false → free.size ≤ (r.2.without used).size := by
  induction rows generalizing best with
  | nil =>
      constructor
      · rintro b rfl
        rw [Option.some.inj h]
      · intro _ hr
        cases hr
  | cons r rows ih =>
      unfold selectRow at h
      split at h
      · next hmatched =>
        have hrest := ih h
        refine ⟨hrest.1, List.forall_mem_cons.mpr ⟨?_, hrest.2⟩⟩
        simp [hmatched]
      · dsimp only at h
        split at h
        · next hempty =>
          cases h
          simp [IndexSet.size_eq_zero_of_isEmpty hempty]
        · split at h
          · next hbest =>
            have hrest := ih h
            have hle := hrest.1 _ rfl
            constructor
            · rintro b rfl
              have hlt := of_decide_eq_true (Option.all_some ▸ hbest)
              exact hle.trans hlt.le
            · refine List.forall_mem_cons.mpr ⟨?_, hrest.2⟩
              intro _
              exact hle
          · next hbest =>
            have hrest := ih h
            refine ⟨hrest.1, List.forall_mem_cons.mpr ⟨?_, hrest.2⟩⟩
            intro _
            cases best with
            | none => simp at hbest
            | some b =>
                have hge : b.2.size ≤ (r.2.without used).size := by simpa using hbest
                exact (hrest.1 b rfl).trans hge

theorem size_le_of_nextRow_eq_some
    {m : Candidates} {matched used : IndexSet} {row : Nat} {free : IndexSet}
    (h : m.nextRow matched used = some (row, free)) :
    ∀ r ∈ m.rows, matched.contains r.1 = false → free.size ≤ (r.2.without used).size :=
  (size_le_of_selectRow_eq_some h).2

theorem matched_of_nextRow_eq_none
    {m : Candidates} {matched used : IndexSet} (h : m.nextRow matched used = none) :
    ∀ r ∈ m.rows, matched.contains r.1 = true :=
  (selectRow_eq_none h).2

end Candidates

/-- The pairs made so far, and the rows and candidates that they use. -/
structure PartialAssignment (m : Candidates) (pairs : Pairing)
    (matched used : IndexSet) : Prop where
  distinct : Pairing.Distinct pairs.toList
  admits : ∀ p ∈ pairs.toList, m.Admits p
  matched_iff : ∀ i, matched.contains i = true ↔ ∃ p ∈ pairs.toList, p.expected = i
  used_iff : ∀ j, used.contains j = true ↔ ∃ p ∈ pairs.toList, p.actual = j

namespace PartialAssignment

variable {m : Candidates} {pairs : Pairing} {matched used : IndexSet}
  {row : Nat} {free : IndexSet}

theorem empty (m : Candidates) : PartialAssignment m .empty .empty .empty where
  distinct := ⟨List.nodup_nil, List.nodup_nil⟩
  admits := by
    intro _ hp
    cases hp
  matched_iff := by simp
  used_iff := by simp

theorem assigns
    (h : PartialAssignment m pairs matched used)
    (hnext : m.nextRow matched used = none) : m.Assigns pairs.toList where
  distinct := h.distinct
  admits := h.admits
  complete := by
    intro r hr
    rw [← h.matched_iff r.1]
    exact Candidates.matched_of_nextRow_eq_none hnext r hr

theorem fresh
    (h : PartialAssignment m pairs matched used)
    (hnext : m.nextRow matched used = some (row, free))
    {choice : Nat} (hchoice : free.contains choice = true) :
    (∀ p ∈ pairs.toList, p.expected ≠ row) ∧
      ∀ p ∈ pairs.toList, p.actual ≠ choice := by
  rcases Candidates.nextRow_eq_some hnext with ⟨candidates, _, hunmatched, rfl⟩
  constructor
  · intro p hp heq
    have hmatched := (h.matched_iff row).mpr ⟨p, hp, heq⟩
    rw [hunmatched] at hmatched
    cases hmatched
  · intro p hp heq
    have hused := (h.used_iff choice).mpr ⟨p, hp, heq⟩
    simp [IndexSet.contains_without, hused] at hchoice

theorem push
    (h : PartialAssignment m pairs matched used)
    (hnext : m.nextRow matched used = some (row, free))
    {choice : Nat} (hchoice : free.contains choice = true) :
    PartialAssignment m (pairs.push ⟨row, choice⟩)
      (matched.insert row) (used.insert choice) := by
  have hfresh := h.fresh hnext hchoice
  rcases Candidates.nextRow_eq_some hnext with ⟨candidates, hrow, _, rfl⟩
  have hcandidate : candidates.contains choice = true := by
    rw [IndexSet.contains_without, Bool.and_eq_true] at hchoice
    exact hchoice.1
  constructor
  · rw [Pairing.toList_push, Pairing.distinct_concat_iff h.distinct]
    simpa using hfresh
  · intro p hp
    rw [Pairing.toList_push, List.mem_append, List.mem_singleton] at hp
    rcases hp with hp | rfl
    · exact h.admits p hp
    · exact ⟨candidates, hrow, hcandidate⟩
  · intro i
    rw [IndexSet.contains_insert, Bool.or_eq_true, h.matched_iff, decide_eq_true_eq]
    simp only [Pairing.toList_push, List.mem_append, List.mem_singleton, or_and_right,
      exists_or, exists_eq_left]
    rw [or_comm, eq_comm (a := i) (b := row)]
  · intro j
    rw [IndexSet.contains_insert, Bool.or_eq_true, h.used_iff, decide_eq_true_eq]
    simp only [Pairing.toList_push, List.mem_append, List.mem_singleton, or_and_right,
      exists_or, exists_eq_left]
    rw [or_comm, eq_comm (a := j) (b := choice)]

/-- A complete assignment with all the pairs made so far gives the next row a free candidate. -/
theorem exists_choice
    (h : PartialAssignment m pairs matched used)
    (hrows : (m.rows.map (·.1)).Nodup)
    (hnext : m.nextRow matched used = some (row, free))
    {all : List IndexPair} (hall : m.Assigns all) (hsub : pairs.toList ⊆ all) :
    ∃ choice, free.contains choice = true ∧ ⟨row, choice⟩ ∈ all := by
  rcases Candidates.nextRow_eq_some hnext with ⟨candidates, hrow, hunmatched, rfl⟩
  rcases hall.complete _ hrow with ⟨⟨i, choice⟩, hp, rfl⟩
  rcases hall.admits _ hp with ⟨candidates', hrow', hcandidate⟩
  have hsame : (i, candidates) = (i, candidates') :=
    List.inj_on_of_nodup_map hrows hrow hrow' rfl
  obtain rfl : candidates = candidates' := (Prod.mk.inj hsame).2
  have hunused : used.contains choice = false := by
    by_contra hused
    rw [Bool.not_eq_false, h.used_iff] at hused
    rcases hused with ⟨q, hq, hactual⟩
    have heq := hall.distinct.eq_of_actual_eq (hsub hq) hp hactual
    have hmatched := (h.matched_iff i).mpr ⟨q, hq, by rw [heq]⟩
    rw [hunmatched] at hmatched
    cases hmatched
  refine ⟨choice, ?_, hp⟩
  rw [IndexSet.contains_without, hcandidate, hunused]
  rfl

end PartialAssignment

/-! ## Trying choices in turn -/

section FirstResult

variable {α : Type} {attempt : Nat → Nat → Except MatchError (Option α × Nat)}
  {choices : List Nat} {deadEnds after : Nat}

theorem exists_of_firstResult_eq_some {a : α}
    (h : firstResult attempt choices deadEnds = .ok (some a, after)) :
    ∃ choice ∈ choices, ∃ start, attempt choice start = .ok (some a, after) := by
  fun_induction firstResult attempt choices deadEnds with
  | case1 => cases h
  | case2 choice choices deadEnds next _ ih =>
      rcases ih h with ⟨other, hmem, hother⟩
      exact ⟨other, List.mem_cons_of_mem _ hmem, hother⟩
  | case3 choice choices deadEnds =>
      exact ⟨choice, List.mem_cons_self, deadEnds, h⟩

theorem forall_of_firstResult_eq_none
    (h : firstResult attempt choices deadEnds = .ok (none, after)) :
    ∀ choice ∈ choices, ∃ start next, attempt choice start = .ok (none, next) := by
  fun_induction firstResult attempt choices deadEnds with
  | case1 =>
      intro _ hchoice
      cases hchoice
  | case2 choice choices deadEnds next hfirst ih =>
      rw [List.forall_mem_cons]
      constructor
      · exact ⟨deadEnds, next, hfirst⟩
      · exact ih h
  | case3 choice choices deadEnds hfirst => exact (hfirst _ h).elim

theorem exists_of_firstResult_eq_error {e : MatchError}
    (h : firstResult attempt choices deadEnds = .error e) :
    ∃ choice ∈ choices, ∃ start, attempt choice start = .error e := by
  fun_induction firstResult attempt choices deadEnds with
  | case1 => cases h
  | case2 choice choices deadEnds next _ ih =>
      rcases ih h with ⟨other, hmem, hother⟩
      exact ⟨other, List.mem_cons_of_mem _ hmem, hother⟩
  | case3 choice choices deadEnds =>
      exact ⟨choice, List.mem_cons_self, deadEnds, h⟩

end FirstResult

namespace Search

/-- Rows and candidates that a search can work with: each row is given once, and every candidate
has its place in the order of trying. -/
structure Valid (s : Search) : Prop where
  rows_nodup : (s.primary.rows.map (·.1)).Nodup
  mem_secondaryOrder : ∀ r ∈ s.primary.rows, ∀ j, r.2.contains j = true → j ∈ s.secondaryOrder

theorem run_eq (s : Search) (pairs : Pairing) (matched used : IndexSet) (deadEnds : Nat) :
    s.run pairs matched used deadEnds =
      match s.primary.nextRow matched used with
      | none => .ok (some pairs, deadEnds)
      | some (row, free) =>
        if free.isEmpty then
          if s.limit ≤ deadEnds + 1 then .error (.tooManyPermutations s.limit)
          else .ok (none, deadEnds + 1)
        else
          firstResult (fun choice deadEnds => do
            let extended ← pairs.add ⟨row, choice⟩
            s.run extended (matched.insert row) (used.insert choice) deadEnds)
            (s.choices free) deadEnds := by
  rw [run]
  split <;> simp [*]

/-- A correct answer to the question for a complete assignment with the given pairs: one that
begins with them, the news that there is none, or the limit. -/
def Answers (s : Search) (pairs : Pairing) :
    Except MatchError (Option Pairing × Nat) → Prop
  | .ok (some found, _) =>
    s.primary.Assigns found.toList ∧ pairs.toList <+: found.toList
  | .ok (none, _) => ∀ all, s.primary.Assigns all → ¬pairs.toList ⊆ all
  | .error e => e = .tooManyPermutations s.limit

theorem mem_choices
    {s : Search} {matched used : IndexSet} {row : Nat} {free : IndexSet} (hs : s.Valid)
    (hnext : s.primary.nextRow matched used = some (row, free)) {choice : Nat} :
    choice ∈ s.choices free ↔ free.contains choice = true := by
  rcases Candidates.nextRow_eq_some hnext with ⟨candidates, hrow, _, rfl⟩
  rw [choices, List.mem_filter]
  constructor
  · intro h
    exact h.2
  · intro h
    refine ⟨?_, h⟩
    rw [IndexSet.contains_without, Bool.and_eq_true] at h
    exact hs.mem_secondaryOrder _ hrow choice h.1

/-- Trying the free candidates of the next row answers the question if every single try does. -/
theorem answers_firstResult
    {s : Search} {pairs : Pairing} {matched used : IndexSet} {row : Nat} {free : IndexSet}
    (hs : s.Valid) (hstate : PartialAssignment s.primary pairs matched used)
    (hnext : s.primary.nextRow matched used = some (row, free))
    {attempt : Nat → Nat → Except MatchError (Option Pairing × Nat)}
    (hattempt : ∀ choice ∈ s.choices free, ∀ start,
      s.Answers (pairs.push ⟨row, choice⟩) (attempt choice start))
    (deadEnds : Nat) :
    s.Answers pairs (firstResult attempt (s.choices free) deadEnds) := by
  cases hresult : firstResult attempt (s.choices free) deadEnds with
  | error e =>
      rcases exists_of_firstResult_eq_error hresult with ⟨choice, hchoice, start, hfail⟩
      have hanswer := hattempt choice hchoice start
      rwa [hfail] at hanswer
  | ok result =>
      rcases result with ⟨found, after⟩
      cases found with
      | some found =>
          rcases exists_of_firstResult_eq_some hresult with ⟨choice, hchoice, start, hfound⟩
          have hanswer := hattempt choice hchoice start
          rw [hfound] at hanswer
          refine ⟨hanswer.1, List.IsPrefix.trans ?_ hanswer.2⟩
          rw [Pairing.toList_push]
          exact List.prefix_append _ _
      | none =>
          intro all hall hsub
          -- the candidate that `all` gives to the row has been tried in vain
          obtain ⟨choice, hfree, hmem⟩ :=
            hstate.exists_choice hs.rows_nodup hnext hall hsub
          have hchoice := (mem_choices hs hnext).mpr hfree
          obtain ⟨start, next, hnone⟩ :=
            forall_of_firstResult_eq_none hresult choice hchoice
          have hanswer := hattempt choice hchoice start
          rw [hnone] at hanswer
          apply hanswer all hall
          rw [Pairing.toList_push]
          exact List.append_subset.mpr ⟨hsub, List.cons_subset.mpr ⟨hmem, by simp⟩⟩

/-- From every state that it reaches, the search answers correctly. -/
theorem run_answers
    {s : Search} (hs : s.Valid) {pairs : Pairing} {matched used : IndexSet}
    (hstate : PartialAssignment s.primary pairs matched used) (deadEnds : Nat) :
    s.Answers pairs (s.run pairs matched used deadEnds) := by
  induction hrank : s.primary.unmatched matched using Nat.strong_induction_on
    generalizing pairs matched used deadEnds with
  | _ rank ih =>
      rw [run_eq]
      cases hnext : s.primary.nextRow matched used with
      | none => exact ⟨hstate.assigns hnext, List.prefix_refl _⟩
      | some choice =>
          rcases choice with ⟨row, free⟩
          dsimp only
          split
          · next hempty =>
            split
            · rfl
            · intro all hall hsub
              obtain ⟨choice, hfree, _⟩ :=
                hstate.exists_choice hs.rows_nodup hnext hall hsub
              rw [IndexSet.contains_eq_false_of_isEmpty hempty] at hfree
              cases hfree
          · apply answers_firstResult hs hstate hnext
            intro choice hchoice start
            have hfree := (mem_choices hs hnext).mp hchoice
            have hfresh := hstate.fresh hnext hfree
            rw [Pairing.add_eq_ok hfresh.1 hfresh.2, ok_bind]
            refine ih _ ?_ (hstate.push hnext hfree) start rfl
            rcases Candidates.nextRow_eq_some hnext with ⟨candidates, hrow, hunmatched, _⟩
            rw [← hrank]
            exact Candidates.unmatched_insert_lt hrow hunmatched

/-- A search from the start finds a complete assignment, shows that there is none, or meets its
limit. -/
theorem solve_cases {s : Search} (hs : s.Valid) :
    (∃ found, s.solve = .ok (some found) ∧ s.primary.Assigns found.toList) ∨
      (s.solve = .ok none ∧ ∀ all, ¬s.primary.Assigns all) ∨
      s.solve = .error (.tooManyPermutations s.limit) := by
  have hanswer := run_answers hs (PartialAssignment.empty s.primary) 0
  rw [solve]
  cases hrun : s.run .empty .empty .empty 0 with
  | error e =>
      rw [hrun] at hanswer
      exact .inr (.inr (congrArg Except.error hanswer))
  | ok result =>
      rcases result with ⟨found, after⟩
      rw [hrun] at hanswer
      cases found with
      | some found => exact .inl ⟨found, rfl, hanswer.1⟩
      | none =>
          right; left
          refine ⟨rfl, ?_⟩
          intro all hall
          exact hanswer all hall (by simp)

end Search

end TableDiff
