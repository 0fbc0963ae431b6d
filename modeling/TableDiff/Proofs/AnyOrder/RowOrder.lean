import TableDiff.Proofs.AnyOrder.Kinds

/-!
# The order of the rows does not matter

The same rows in another order are paired in another way, but equally many of them.  The rows
without predicates leave over equally many actual rows of each kind.  Whether the rows with
predicates can be paired with these depends on the kinds alone, and they are paired all together or
not at all.
-/

namespace TableDiff

theorem SameRows.canonicalOrder {entries entries' : List Entry} (h : SameRows entries entries') :
    SameRows (canonicalOrder entries) (canonicalOrder entries') := by
  have hleft := of_perm (canonicalOrder_perm entries)
  have hright := of_perm (canonicalOrder_perm entries').symm
  exact (hleft.trans h).trans hright

theorem Entry.among_ofTable (t : Table) : Among t.rows (ofTable t) := by
  intro e he
  exact row_mem_of_mem_ofTable he

theorem Entry.Among.filter {rows : List Row} {entries : List Entry} (h : Among rows entries)
    (p : Entry → Bool) : Among rows (entries.filter p) := by
  intro e he
  exact h e (List.mem_of_mem_filter he)

section

variable {δ : Type} {m : CellMatcher} {κ : Row → δ} {X Y : List Row}
  {limit limit' : Nat} {expected expected' actual actual' left left' : List Entry}
  {pairs pairs' : List (Entry × Entry)} {found found' : Option (List (Entry × Entry))}

/-- The rows without predicates use up equally many actual rows of each kind. -/
theorem left_kinds_perm_of_pairLiteralRows [DecidableEq δ] (hκ : m.Sorts κ X Y)
    (h : pairLiteralRows m expected actual = .ok (pairs, left))
    (h' : pairLiteralRows m expected' actual' = .ok (pairs', left'))
    (hsame : SameRows expected expected') (hsame' : SameRows actual actual')
    (hexpected : Entry.Among X expected) (hactual : Entry.Among Y actual)
    (hliteral : ∀ e ∈ expected, e.row.hasPredicate = false) :
    (left.map fun b => κ b.row).Perm (left'.map fun b => κ b.row) := by
  obtain ⟨rest, hgreedy, hleft⟩ := pairLiteralRows_eq_ok h
  obtain ⟨rest', hgreedy', hleft'⟩ := pairLiteralRows_eq_ok h'
  have hrest := left_kinds_perm_of_pairGreedily hκ hgreedy hgreedy' hsame.canonicalOrder
    hsame'.canonicalOrder
    (fun e he => hexpected e ((canonicalOrder_perm expected).mem_iff.mp he))
    (fun a ha => hactual a ((canonicalOrder_perm actual).mem_iff.mp ha))
    (fun e he => hliteral e ((canonicalOrder_perm expected).mem_iff.mp he))
  exact ((hleft.map _).trans hrest).trans (hleft'.map _).symm

theorem among_of_pairLiteralRows (h : pairLiteralRows m expected actual = .ok (pairs, left))
    (hactual : Entry.Among Y actual) : Entry.Among Y left := by
  intro b hb
  exact hactual b ((pairLiteralRows_sound h).2.subset (List.mem_append_right _ hb))

theorem length_add_of_pairLiteralRows
    (h : pairLiteralRows m expected actual = .ok (pairs, left)) :
    pairs.length + left.length = actual.length := by
  have hlength := (pairLiteralRows_sound h).2.length_eq
  rwa [List.length_append, List.length_map] at hlength

/-- Actual rows of the same kinds can be paired with the same expected rows. -/
theorem matchable_joins_of_kinds (hκ : m.Sorts κ X Y)
    (hmatchable : Matchable m.Joins expected left) (hsame : SameRows expected expected')
    (hkinds : (left.map fun b => κ b.row).Perm (left'.map fun b => κ b.row))
    (hexpected : Entry.Among X expected) (hleft : Entry.Among Y left)
    (hleft' : Entry.Among Y left') : Matchable m.Joins expected' left' := by
  have hreordered : Matchable m.Joins expected' left :=
    matchable_joins_iff.mpr ((matchable_joins_iff.mp hmatchable).perm hsame (.refl _))
  apply hreordered.of_kinds hkinds
  intro e he a ha a' ha' hkind hjoins
  have hmem := hsame.forall_mem_iff.mp hexpected e he
  exact hκ.matches_of_eq e.row hmem a.row (hleft a ha) a'.row (hleft' a' ha') hkind hjoins

/-- The rows with predicates are all paired, or none of them. -/
theorem length_of_pairPredicateRows (h : pairPredicateRows m limit expected actual = .ok found) :
    (Matchable m.Joins expected actual → (found.getD []).length = expected.length) ∧
      (¬Matchable m.Joins expected actual → (found.getD []).length = 0) := by
  obtain ⟨_, hcomplete⟩ := pairPredicateRows_eq_ok h
  constructor
  · intro hmatchable
    have hlength := (hcomplete hmatchable).left.length_eq
    rwa [List.length_map] at hlength
  · intro hunmatchable
    by_cases hne : expected = []
    · rw [hne, pairPredicateRows_nil] at h
      cases h
      rfl
    · rcases pairPredicateRows_cases m limit actual hne with
        ⟨pairs, _, hpairs⟩ | ⟨hnone, _⟩ | herror | ⟨e, _, herror⟩
      · exact absurd ⟨pairs, hpairs⟩ hunmatchable
      · rw [hnone] at h
        cases h
        rfl
      · rw [herror] at h
        cases h
      · rw [herror] at h
        cases h

theorem length_eq_of_pairPredicateRows
    (h : pairPredicateRows m limit expected actual = .ok found)
    (h' : pairPredicateRows m limit' expected' actual' = .ok found')
    (hlength : expected.length = expected'.length)
    (hiff : Matchable m.Joins expected actual ↔ Matchable m.Joins expected' actual') :
    (found.getD []).length = (found'.getD []).length := by
  obtain ⟨hall, hnone⟩ := length_of_pairPredicateRows h
  obtain ⟨hall', hnone'⟩ := length_of_pairPredicateRows h'
  by_cases hmatchable : Matchable m.Joins expected actual
  · rw [hall hmatchable, hall' (hiff.mp hmatchable), hlength]
  · rw [hnone hmatchable, hnone' (mt hiff.mpr hmatchable)]

/-- The same rows in another order have equally many pairs. -/
theorem size_eq_of_sameRows [DecidableEq δ] {l l' : Pairing} (hκ : m.Sorts κ X Y)
    (h : matchAnyOrder m limit expected actual = .ok l)
    (h' : matchAnyOrder m limit' expected' actual' = .ok l')
    (hsame : SameRows expected expected') (hsame' : SameRows actual actual')
    (hexpected : Entry.Among X expected) (hactual : Entry.Among Y actual) : l.size = l'.size := by
  obtain ⟨pairs, left, found, hliteral, hfound, hlist, _⟩ := matchAnyOrder_eq_ok h
  obtain ⟨pairs', left', found', hliteral', hfound', hlist', _⟩ := matchAnyOrder_eq_ok h'
  have hpredicate := hsame.filter Row.hasPredicate
  have hamong := hexpected.filter fun e => e.row.hasPredicate
  have hamong' : Entry.Among X (expected'.filter fun e => e.row.hasPredicate) :=
    hpredicate.forall_mem_iff.mp hamong
  have hleft := among_of_pairLiteralRows hliteral hactual
  have hleft' := among_of_pairLiteralRows hliteral' (hsame'.forall_mem_iff.mp hactual)
  have hfree : ∀ e ∈ expected.filter fun e => !e.row.hasPredicate,
      e.row.hasPredicate = false := by
    intro e he
    simpa using (List.mem_filter.mp he).2
  have hkinds := left_kinds_perm_of_pairLiteralRows hκ hliteral hliteral'
    (hsame.filter fun row => !row.hasPredicate) hsame' (hexpected.filter _) hactual hfree
  have hiff : Matchable m.Joins (expected.filter fun e => e.row.hasPredicate) left ↔
      Matchable m.Joins (expected'.filter fun e => e.row.hasPredicate) left' := by
    constructor
    · intro hmatchable
      exact matchable_joins_of_kinds hκ hmatchable hpredicate hkinds hamong hleft hleft'
    · intro hmatchable
      exact matchable_joins_of_kinds hκ hmatchable hpredicate.symm hkinds.symm hamong' hleft'
        hleft
  have hfounds := length_eq_of_pairPredicateRows hfound hfound' hpredicate.length_eq hiff
  have hactuals := hsame'.length_eq
  have hlefts := hkinds.length_eq
  have hpairs := length_add_of_pairLiteralRows hliteral
  have hpairs' := length_add_of_pairLiteralRows hliteral'
  rw [List.length_map, List.length_map] at hlefts
  rw [← Pairing.length_toList, ← Pairing.length_toList, hlist, hlist', List.length_map,
    List.length_map, List.length_append, List.length_append, hfounds]
  omega

/-- The verdict and the size of the diff do not depend on the order of the rows. -/
theorem RowMatch.anyOrder_tally_eq [DecidableEq δ] {r r' : RowMatch} (hκ : m.Sorts κ X Y)
    (h : anyOrder m limit expected actual = .ok r)
    (h' : anyOrder m limit' expected' actual' = .ok r')
    (hsame : SameRows expected expected') (hsame' : SameRows actual actual')
    (hexpected : Entry.Among X expected) (hactual : Entry.Among Y actual)
    (hnodup : (expected.map (·.index)).Nodup) (hnodup' : (actual.map (·.index)).Nodup)
    (hreordered : (expected'.map (·.index)).Nodup) (hreordered' : (actual'.map (·.index)).Nodup) :
    r.tally = r'.tally := by
  obtain ⟨l, hl, htally⟩ := anyOrder_tally h hnodup hnodup'
  obtain ⟨l', hl', htally'⟩ := anyOrder_tally h' hreordered hreordered'
  rw [htally, htally', size_eq_of_sameRows hκ hl hl' hsame hsame' hexpected hactual,
    hsame.length_eq, hsame'.length_eq]

end

end TableDiff
