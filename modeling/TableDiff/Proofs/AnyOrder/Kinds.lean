import TableDiff.Proofs.PerfectMatching.Kinds
import TableDiff.Proofs.Tally

/-!
# What greedy pairing leaves over

Actual rows are of one kind if the same expected rows match them.  An expected row without
predicates only matches rows of a single kind.  So it does not matter in which order rows are
paired greedily: of each kind as many rows are left over as there are too many for the expected
rows that match them.
-/

namespace TableDiff

variable {δ : Type}

/-- A way of sorting actual rows into kinds: an expected row matches all rows of a kind or none, and
without predicates it matches the rows of a single kind. -/
structure CellMatcher.Sorts (m : CellMatcher) (κ : Row → δ) (expected actual : List Row) :
    Prop where
  eq_of_matches : ∀ e ∈ expected, e.hasPredicate = false → ∀ a ∈ actual, ∀ a' ∈ actual,
    m.rowsMatch e a = .ok true → m.rowsMatch e a' = .ok true → κ a = κ a'
  matches_of_eq : ∀ e ∈ expected, ∀ a ∈ actual, ∀ a' ∈ actual,
    κ a = κ a' → m.rowsMatch e a = .ok true → m.rowsMatch e a' = .ok true

namespace CellMatcher

/-- Which of the expected rows match an actual row. -/
def answers (m : CellMatcher) (expected : List Row) (a : Row) : List Bool :=
  expected.map fun e => decide (m.rowsMatch e a = .ok true)

theorem answers_eq_iff {m : CellMatcher} {expected : List Row} {a a' : Row} :
    m.answers expected a = m.answers expected a' ↔
      ∀ e ∈ expected, m.rowsMatch e a = .ok true ↔ m.rowsMatch e a' = .ok true := by
  simp only [answers, List.map_inj_left, decide_eq_decide]

/-- The rows of two tables are sorted by their answers. -/
theorem sorts_answers {m : CellMatcher} {s t : Table} (hs : s.Built)
    (hrespect : s.PredicatesRespect m.conversion) :
    m.Sorts (m.answers s.rows) s.rows t.rows where
  eq_of_matches := by
    intro e he hliteral a _ a' _ ha ha'
    rw [answers_eq_iff]
    intro x hx
    have hlength : x.cells.length = e.cells.length := by
      rw [hs.length_cells hx, hs.length_cells he]
    have hagree : ∀ p, Value.predicate p ∈ x.cells → ∀ b b', p.AgreesOn m.conversion b b' := by
      intro p hp
      exact (hrespect x hx p hp).agreesOn
    constructor
    · exact rowsMatch_exchange hliteral hlength (fun p hp => hagree p hp a a') ha ha'
    · exact rowsMatch_exchange hliteral hlength (fun p hp => hagree p hp a' a) ha' ha
  matches_of_eq := by
    intro e he a _ a' _ heq
    exact (answers_eq_iff.mp heq e he).mp

end CellMatcher

/-- Two lists of entries hold the same rows, each equally often. -/
def SameRows (entries entries' : List Entry) : Prop :=
  (entries.map (·.row)).Perm (entries'.map (·.row))

namespace SameRows

variable {entries entries' : List Entry}

theorem length_eq (h : SameRows entries entries') : entries.length = entries'.length := by
  have hlength := List.Perm.length_eq h
  rwa [List.length_map, List.length_map] at hlength

theorem exists_eq_singleton {e : Entry} (h : SameRows entries entries') (he : entries = [e]) :
    ∃ e', entries' = [e'] ∧ e'.row = e.row := by
  rw [SameRows, he, List.map_singleton, List.singleton_perm, eq_comm,
    List.map_eq_singleton_iff] at h
  exact h

theorem forall_mem_iff {p : Row → Prop} (h : SameRows entries entries') :
    (∀ e ∈ entries, p e.row) ↔ ∀ e ∈ entries', p e.row := by
  have hrows : (∀ row ∈ entries.map (·.row), p row) ↔ ∀ row ∈ entries'.map (·.row), p row := by
    apply forall_congr'
    intro row
    rw [List.Perm.mem_iff h]
  simpa using hrows

theorem filter (h : SameRows entries entries') (p : Row → Bool) :
    SameRows (entries.filter fun e => p e.row) (entries'.filter fun e => p e.row) := by
  have hrows := List.Perm.filter p h
  rwa [List.filter_map, List.filter_map] at hrows

theorem map_perm {γ : Type} (h : SameRows entries entries') (f : Row → γ) :
    (entries.map fun e => f e.row).Perm (entries'.map fun e => f e.row) := by
  have hrows := List.Perm.map f h
  rwa [List.map_map, List.map_map] at hrows

theorem countP_eq (h : SameRows entries entries') (p : Row → Bool) :
    entries.countP (fun e => p e.row) = entries'.countP fun e => p e.row := by
  have hrows := List.Perm.countP_eq p h
  rwa [List.countP_map, List.countP_map] at hrows

end SameRows

theorem SameRows.of_perm {entries entries' : List Entry} (h : entries.Perm entries') :
    SameRows entries entries' :=
  h.map _

/-- The rows of the entries are among the given rows. -/
def Entry.Among (rows : List Row) (entries : List Entry) : Prop := ∀ e ∈ entries, e.row ∈ rows

/-! ## Greedy pairing -/

section

variable [DecidableEq δ] {m : CellMatcher} {κ : Row → δ} {X Y : List Row}

/-- Of each kind, greedy pairing uses up as many actual rows as there are expected rows that match
them, as long as there are any. -/
theorem count_left_pairGreedily (hκ : m.Sorts κ X Y) {expected available left : List Entry}
    {pairs : List (Entry × Entry)} (h : pairGreedily m expected available = .ok (pairs, left))
    (hexpected : Entry.Among X expected) (havailable : Entry.Among Y available)
    (hliteral : ∀ e ∈ expected, e.row.hasPredicate = false) {a : Row} (ha : a ∈ Y) :
    (left.map fun b => κ b.row).count (κ a) =
      (available.map fun b => κ b.row).count (κ a) -
        expected.countP fun e => decide (m.rowsMatch e.row a = .ok true) := by
  induction expected generalizing available pairs left with
  | nil =>
      cases h
      rfl
  | cons e expected ih =>
      obtain ⟨hmem, hmems⟩ := List.forall_mem_cons.mp hexpected
      obtain ⟨hfree, hfrees⟩ := List.forall_mem_cons.mp hliteral
      rcases pairGreedily_cons_eq_ok h with ⟨b, others, rest, htake, hrec, rfl⟩ | ⟨htake, hrec⟩
      · obtain ⟨hjoins, hperm⟩ := takeMatch_eq_some htake
        have hothers : Entry.Among Y others := by
          intro c hc
          exact havailable c (hperm.symm.subset (List.mem_cons_of_mem b hc))
        have hb := havailable b (hperm.symm.subset List.mem_cons_self)
        have hcount := (hperm.map fun c => κ c.row).count_eq (κ a)
        rw [ih hrec hmems hothers hfrees, hcount, List.map_cons, List.count_cons, List.countP_cons]
        by_cases hmatch : m.rowsMatch e.row a = .ok true
        · have hkind := hκ.eq_of_matches e.row hmem hfree b.row hb a ha hjoins hmatch
          simp only [hkind, hmatch, BEq.rfl, decide_true, if_true]
          omega
        · have hkind : κ b.row ≠ κ a := by
            intro heq
            exact hmatch (hκ.matches_of_eq e.row hmem b.row hb a ha heq hjoins)
          simp [hkind, hmatch]
      · rw [ih hrec hmems havailable hfrees, List.countP_cons]
        by_cases hmatch : m.rowsMatch e.row a = .ok true
        · have hnone : (available.map fun b => κ b.row).count (κ a) = 0 := by
            rw [List.count_eq_zero, List.mem_map]
            rintro ⟨b, hb, heq⟩
            have hfalse := takeMatch_eq_none htake b hb
            rw [hκ.matches_of_eq e.row hmem a ha b.row (havailable b hb) heq.symm hmatch] at hfalse
            cases hfalse
          rw [hnone, Nat.zero_sub, Nat.zero_sub]
        · simp [hmatch]

variable {expected expected' available available' left left' : List Entry}
  {pairs pairs' : List (Entry × Entry)}

theorem among_of_pairGreedily (h : pairGreedily m expected available = .ok (pairs, left))
    (havailable : Entry.Among Y available) : Entry.Among Y left := by
  intro b hb
  exact havailable b ((pairGreedily_sound h).2.1.subset (List.mem_append_right _ hb))

/-- Whatever the order of the rows, equally many rows of each kind are left over. -/
theorem left_kinds_perm_of_pairGreedily (hκ : m.Sorts κ X Y)
    (h : pairGreedily m expected available = .ok (pairs, left))
    (h' : pairGreedily m expected' available' = .ok (pairs', left'))
    (hsame : SameRows expected expected') (hsame' : SameRows available available')
    (hexpected : Entry.Among X expected) (havailable : Entry.Among Y available)
    (hliteral : ∀ e ∈ expected, e.row.hasPredicate = false) :
    (left.map fun b => κ b.row).Perm (left'.map fun b => κ b.row) := by
  have hexpected' : Entry.Among X expected' := hsame.forall_mem_iff.mp hexpected
  have havailable' : Entry.Among Y available' := hsame'.forall_mem_iff.mp havailable
  have hliteral' : ∀ e ∈ expected', e.row.hasPredicate = false :=
    (hsame.forall_mem_iff (p := fun row => row.hasPredicate = false)).mp hliteral
  rw [List.perm_iff_count]
  intro kind
  by_cases hkind : ∃ a ∈ Y, κ a = kind
  · obtain ⟨a, ha, rfl⟩ := hkind
    rw [count_left_pairGreedily hκ h hexpected havailable hliteral ha,
      count_left_pairGreedily hκ h' hexpected' havailable' hliteral' ha,
      (hsame'.map_perm κ).count_eq, hsame.countP_eq fun e => decide (m.rowsMatch e a = .ok true)]
  · have hnone : ∀ {left : List Entry}, Entry.Among Y left →
        (left.map fun b => κ b.row).count kind = 0 := by
      intro left hamong
      rw [List.count_eq_zero, List.mem_map]
      rintro ⟨b, hb, heq⟩
      exact hkind ⟨b.row, hamong b hb, heq⟩
    rw [hnone (among_of_pairGreedily h havailable), hnone (among_of_pairGreedily h' havailable')]

end

end TableDiff
