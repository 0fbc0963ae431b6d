import TableDiff.AnyOrder
import TableDiff.Proofs.Cells
import TableDiff.Proofs.PerfectMatching

/-!
# Greedy pairing loses no match

Each expected row takes the first actual row that it matches.  If the actual rows that it matches
are matched by the same expected rows, it does not matter which of them it takes: a complete pairing
of all rows, those of a later phase included, is still possible with the others.
-/

namespace TableDiff

def CellMatcher.Joins (m : CellMatcher) (expected actual : Entry) : Prop :=
  m.rowsMatch expected.row actual.row = .ok true

instance (m : CellMatcher) : DecidableRel m.Joins := fun e a =>
  inferInstanceAs (Decidable (m.rowsMatch e.row a.row = .ok true))

section

variable {m : CellMatcher} {e : Entry} {available others : List Entry}

/-- The entry that is taken is the first one that matches. -/
theorem exists_split_of_takeMatch
    {e : Row} {a : Entry} (h : takeMatch m e available = .ok (some (a, others))) :
    ∃ before after, available = before ++ a :: after ∧ others = before ++ after ∧
      m.rowsMatch e a.row = .ok true ∧ ∀ b ∈ before, m.rowsMatch e b.row = .ok false := by
  induction available generalizing others with
  | nil => cases h
  | cons head available ih =>
      rcases bind_eq_ok_iff.mp h with ⟨matched, hmatched, hrest⟩
      cases matched with
      | true =>
          cases hrest
          refine ⟨[], available, rfl, rfl, hmatched, ?_⟩
          intro _ hb
          cases hb
      | false =>
          rcases bind_eq_ok_iff.mp hrest with ⟨found, hfound, hpure⟩
          cases found with
          | none => cases hpure
          | some found =>
              cases hpure
              obtain ⟨before, after, rfl, hothers, htaken, hbefore⟩ := ih hfound
              refine ⟨head :: before, after, rfl, congrArg (head :: ·) hothers, htaken, ?_⟩
              rw [List.forall_mem_cons]
              exact ⟨hmatched, hbefore⟩

theorem takeMatch_eq_some
    {e : Row} {a : Entry} (h : takeMatch m e available = .ok (some (a, others))) :
    m.rowsMatch e a.row = .ok true ∧ available.Perm (a :: others) := by
  obtain ⟨before, after, rfl, rfl, htaken, _⟩ := exists_split_of_takeMatch h
  exact ⟨htaken, List.perm_middle⟩

theorem takeMatch_cons_of_matches {row : Row} (h : m.rowsMatch row e.row = .ok true) :
    takeMatch m row (e :: available) = .ok (some (e, available)) := by
  simp [takeMatch, h, pure, Except.pure]

/-- An entry that does not match is passed over. -/
theorem takeMatch_cons_of_not_matches {row : Row} {found : Option (Entry × List Entry)}
    (h : m.rowsMatch row e.row = .ok false) (htake : takeMatch m row available = .ok found) :
    takeMatch m row (e :: available) =
      .ok (found.map fun p => (p.1, e :: p.2)) := by
  simp [takeMatch, h, htake, pure, Except.pure]

theorem takeMatch_eq_none
    {e : Row} (h : takeMatch m e available = .ok none) :
    ∀ a ∈ available, m.rowsMatch e a.row = .ok false := by
  induction available with
  | nil =>
      intro _ ha
      cases ha
  | cons head available ih =>
      rcases bind_eq_ok_iff.mp h with ⟨matched, hmatched, hrest⟩
      cases matched with
      | true => cases hrest
      | false =>
          rcases bind_eq_ok_iff.mp hrest with ⟨found, hfound, hpure⟩
          cases found with
          | none => exact List.forall_mem_cons.mpr ⟨hmatched, ih hfound⟩
          | some found => cases hpure

theorem takeMatch_eq_error {e : Row} {fault : MatchError}
    (h : takeMatch m e available = .error fault) :
    ∃ a ∈ available, m.rowsMatch e a.row = .error fault := by
  induction available with
  | nil => cases h
  | cons head available ih =>
      rcases bind_eq_error_iff.mp h with hhead | ⟨matched, _, hrest⟩
      · exact ⟨head, List.mem_cons_self, hhead⟩
      · cases matched with
        | true => cases hrest
        | false =>
            rcases bind_eq_error_iff.mp hrest with hrest | ⟨found, _, hpure⟩
            · obtain ⟨a, ha, hfault⟩ := ih hrest
              exact ⟨a, List.mem_cons_of_mem _ ha, hfault⟩
            · cases hpure

end

section

variable {m : CellMatcher} {e : Entry} {expected available others left : List Entry}
  {pairs : List (Entry × Entry)}

theorem pairGreedily_cons_of_some {a : Entry} (htake : takeMatch m e.row available =
      .ok (some (a, others))) (hrest : pairGreedily m expected others = .ok (pairs, left)) :
    pairGreedily m (e :: expected) available = .ok ((e, a) :: pairs, left) := by
  simp [pairGreedily, htake, hrest, pure, Except.pure]

theorem pairGreedily_cons_of_none (htake : takeMatch m e.row available = .ok none) :
    pairGreedily m (e :: expected) available = pairGreedily m expected available := by
  simp [pairGreedily, htake]

theorem pairGreedily_cons_eq_ok
    (h : pairGreedily m (e :: expected) available = .ok (pairs, left)) :
    (∃ a others rest, takeMatch m e.row available = .ok (some (a, others)) ∧
        pairGreedily m expected others = .ok (rest, left) ∧ pairs = (e, a) :: rest) ∨
      (takeMatch m e.row available = .ok none ∧
        pairGreedily m expected available = .ok (pairs, left)) := by
  rcases bind_eq_ok_iff.mp h with ⟨found, hfound, hrest⟩
  cases found with
  | none => exact .inr ⟨hfound, hrest⟩
  | some found =>
      rcases bind_eq_ok_iff.mp hrest with ⟨⟨rest, left'⟩, hrec, hpure⟩
      cases hpure
      exact .inl ⟨found.1, found.2, rest, hfound, hrec, rfl⟩

/-- The pairs join matching rows, each expected row at most once, and the actual rows of the pairs
and those left over are all actual rows. -/
theorem pairGreedily_sound
    (h : pairGreedily m expected available = .ok (pairs, left)) :
    (pairs.map Prod.fst).Sublist expected ∧
      (pairs.map Prod.snd ++ left).Perm available ∧
      ∀ p ∈ pairs, m.Joins p.1 p.2 := by
  induction expected generalizing available pairs left with
  | nil =>
      cases h
      refine ⟨List.Sublist.refl _, .refl _, ?_⟩
      intro _ hp
      cases hp
  | cons e expected ih =>
      rcases pairGreedily_cons_eq_ok h with
        ⟨a, others, rest, htake, hrec, rfl⟩ | ⟨_, hrec⟩
      · have htaken := takeMatch_eq_some htake
        have hrest := ih hrec
        refine ⟨hrest.1.cons_cons e, ?_, List.forall_mem_cons.mpr ⟨htaken.1, hrest.2.2⟩⟩
        exact (hrest.2.1.cons a).trans htaken.2.symm
      · have hrest := ih hrec
        exact ⟨hrest.1.cons e, hrest.2⟩

/-- Greedy pairing only fails where the comparison of two rows does. -/
theorem pairGreedily_eq_error {fault : MatchError}
    (h : pairGreedily m expected available = .error fault) :
    ∃ e ∈ expected, ∃ a ∈ available, m.rowsMatch e.row a.row = .error fault := by
  induction expected generalizing available with
  | nil => cases h
  | cons e expected ih =>
      have later : ∀ rest : List Entry, rest ⊆ available →
          pairGreedily m expected rest = .error fault →
          ∃ x ∈ e :: expected, ∃ a ∈ available, m.rowsMatch x.row a.row = .error fault := by
        intro rest hsub hrest
        obtain ⟨x, hx, a, ha, hfault⟩ := ih hrest
        exact ⟨x, List.mem_cons_of_mem _ hx, a, hsub ha, hfault⟩
      rcases bind_eq_error_iff.mp h with htake | ⟨found, hfound, hrest⟩
      · obtain ⟨a, ha, hfault⟩ := takeMatch_eq_error htake
        exact ⟨e, List.mem_cons_self, a, ha, hfault⟩
      · cases found with
        | none => exact later available (List.Subset.refl _) hrest
        | some found =>
            rcases bind_eq_error_iff.mp hrest with hrest | ⟨result, _, hpure⟩
            · have htaken := (takeMatch_eq_some hfound).2.symm.subset
              have hsub : found.2 ⊆ available := by
                intro a ha
                exact htaken (List.mem_cons_of_mem _ ha)
              exact later found.2 hsub hrest
            · cases hpure

/-- If all rows can be paired, greedy pairing pairs all its expected rows and leaves actual rows
that the other expected rows can be paired with. -/
theorem pairGreedily_of_matchable
    (h : pairGreedily m expected available = .ok (pairs, left))
    (hmatchable : Matchable m.Joins (expected ++ others) available)
    (hexchange : ∀ e ∈ expected, ∀ x ∈ expected ++ others, ∀ a ∈ available, ∀ a' ∈ available,
      m.Joins e a → m.Joins e a' → m.Joins x a → m.Joins x a') :
    pairs.map Prod.fst = expected ∧ Matchable m.Joins others left := by
  induction expected generalizing available pairs left with
  | nil =>
      cases h
      exact ⟨rfl, hmatchable⟩
  | cons e expected ih =>
      rcases pairGreedily_cons_eq_ok h with
        ⟨a, rest, pairs, htake, hrec, rfl⟩ | ⟨htake, _⟩
      · have htaken := takeMatch_eq_some htake
        have hsub := htaken.2.symm.subset
        -- a later row may want `a`, and then takes what `e` would have had
        have hothers : Matchable m.Joins (expected ++ others) rest := by
          refine (hmatchable.perm (.refl _) htaken.2).of_cons_of_exchange ?_
          intro x hx a' hmem ha' hxa
          exact hexchange e List.mem_cons_self x (List.mem_cons_of_mem _ hx)
            a (hsub List.mem_cons_self) a' (hsub (List.mem_cons_of_mem _ hmem))
            htaken.1 ha' hxa
        have hlater : ∀ e ∈ expected, ∀ x ∈ expected ++ others, ∀ a ∈ rest, ∀ a' ∈ rest,
            m.Joins e a → m.Joins e a' → m.Joins x a → m.Joins x a' := by
          intro e' he' x hx a ha a' ha'
          exact hexchange e' (List.mem_cons_of_mem _ he') x (List.mem_cons_of_mem _ hx)
            a (hsub (List.mem_cons_of_mem _ ha)) a' (hsub (List.mem_cons_of_mem _ ha'))
        have hrest := ih hrec hothers hlater
        exact ⟨congrArg (e :: ·) hrest.1, hrest.2⟩
      · rcases hmatchable.exists_partner with ⟨a, rest, hjoins, hperm, _⟩
        have ha : a ∈ available := hperm.symm.mem_iff.mp List.mem_cons_self
        have hfalse := takeMatch_eq_none htake a ha
        rw [hjoins] at hfalse
        cases hfalse

end

/-! ## The rows without predicates -/

theorem canonicalOrder_perm (entries : List Entry) :
    (canonicalOrder entries).Perm entries := by
  have h := (sortBy_perm (compareLex (compareOn (·.1)) (compareOn (·.2.position)))
    (entries.map fun e => (e.row.canonicalKey, e))).map (·.2)
  rw [List.map_map] at h
  exact h.trans (by simp [Function.comp_def])

section

variable {m : CellMatcher} {literal actual left : List Entry}
  {pairs : List (Entry × Entry)}

theorem pairLiteralRows_eq_ok
    (h : pairLiteralRows m literal actual = .ok (pairs, left)) :
    ∃ rest, pairGreedily m (canonicalOrder literal) (canonicalOrder actual) =
      .ok (pairs, rest) ∧ left.Perm rest := by
  rcases bind_eq_ok_iff.mp h with ⟨⟨pairs', rest⟩, hgreedy, hpure⟩
  cases hpure
  exact ⟨rest, hgreedy, sortBy_perm _ _⟩

theorem pairLiteralRows_sound
    (h : pairLiteralRows m literal actual = .ok (pairs, left)) :
    PartialMatching m.Joins literal (pairs.map Prod.snd) pairs ∧
      (pairs.map Prod.snd ++ left).Perm actual := by
  rcases pairLiteralRows_eq_ok h with ⟨rest, hgreedy, hleft⟩
  have hsound := pairGreedily_sound hgreedy
  constructor
  · exact ⟨hsound.1.subperm.trans (canonicalOrder_perm literal).subperm,
      List.Subperm.refl _, hsound.2.2⟩
  · exact ((hleft.append_left _).trans hsound.2.1).trans (canonicalOrder_perm actual)

theorem pairLiteralRows_eq_error {fault : MatchError}
    (h : pairLiteralRows m literal actual = .error fault) :
    ∃ e ∈ literal, ∃ a ∈ actual, m.rowsMatch e.row a.row = .error fault := by
  rcases bind_eq_error_iff.mp h with hgreedy | ⟨result, _, hpure⟩
  · obtain ⟨e, he, a, ha, hfault⟩ := pairGreedily_eq_error hgreedy
    exact ⟨e, (canonicalOrder_perm _).mem_iff.mp he, a, (canonicalOrder_perm _).mem_iff.mp ha,
      hfault⟩
  · cases hpure

theorem exists_pairLiteralRows_eq_ok
    (h : ∀ e ∈ literal, ∀ a ∈ actual, ∃ b, m.rowsMatch e.row a.row = .ok b) :
    ∃ result, pairLiteralRows m literal actual = .ok result := by
  apply exists_eq_ok_of_ne_error
  intro fault hfault
  obtain ⟨e, he, a, ha, herror⟩ := pairLiteralRows_eq_error hfault
  obtain ⟨b, hb⟩ := h e he a ha
  cases hb.symm.trans herror

theorem pairLiteralRows_of_matchable {others : List Entry}
    (h : pairLiteralRows m literal actual = .ok (pairs, left))
    (hmatchable : Matchable m.Joins (literal ++ others) actual)
    (hexchange : ∀ e ∈ literal, ∀ x ∈ literal ++ others, ∀ a ∈ actual, ∀ a' ∈ actual,
      m.Joins e a → m.Joins e a' → m.Joins x a → m.Joins x a') :
    (pairs.map Prod.fst).Perm literal ∧ Matchable m.Joins others left := by
  rcases pairLiteralRows_eq_ok h with ⟨rest, hgreedy, hleft⟩
  have hliteral := canonicalOrder_perm literal
  have hactual := canonicalOrder_perm actual
  have hall := hliteral.append_right others
  have hordered : ∀ e ∈ canonicalOrder literal, ∀ x ∈ canonicalOrder literal ++ others,
      ∀ a ∈ canonicalOrder actual, ∀ a' ∈ canonicalOrder actual,
        m.Joins e a → m.Joins e a' → m.Joins x a → m.Joins x a' := by
    intro e he x hx a ha a' ha'
    exact hexchange e (hliteral.mem_iff.mp he) x (hall.mem_iff.mp hx)
      a (hactual.mem_iff.mp ha) a' (hactual.mem_iff.mp ha')
  obtain ⟨hpaired, hothers⟩ := pairGreedily_of_matchable hgreedy
    (hmatchable.perm hall.symm hactual.symm) hordered
  constructor
  · rw [hpaired]
    exact hliteral
  · exact hothers.perm (.refl _) hleft.symm

end

end TableDiff
