import TableDiff.Proofs.Fallible
import TableDiff.Proofs.Pairing.Built

/-!
# Many pairs at once

Adding one pair looks both of its indices up among the pairs that are there.  Adding many keeps the
used indices of either side in a set and does not look at the pairs again.  Both give the same
pairing or the same error, because the sets hold the indices of just the pairs that are there.  The
error is about the first pair with a used index, and about its expected side if both are used.
-/

namespace TableDiff

namespace Pairing

variable {l : Pairing} {pairs used : List IndexPair} {p : IndexPair} {e : MatchError}

/-- A set that holds an index of every pair does so after a pair is added. -/
theorem mem_insert_iff_mem_push {set : Std.TreeSet Nat} {f : IndexPair → Nat}
    (hset : ∀ i, i ∈ set ↔ i ∈ l.toList.map f) (p : IndexPair) (i : Nat) :
    i ∈ set.insert (f p) ↔ i ∈ (l.push p).toList.map f := by
  rw [mem_insert_iff, hset, toList_push, List.map_append, List.mem_append, or_comm,
    List.map_singleton, List.mem_singleton, eq_comm]

/-- The sets and the lookups tell alike which indices are used. -/
theorem addFresh_eq_foldlM_add {expected actual : Std.TreeSet Nat}
    (hexpected : ∀ i, i ∈ expected ↔ i ∈ l.toList.map (·.expected))
    (hactual : ∀ j, j ∈ actual ↔ j ∈ l.toList.map (·.actual)) :
    addFresh expected actual l pairs = pairs.foldlM add l := by
  induction pairs generalizing expected actual l with
  | nil => rfl
  | cons p pairs ih =>
      have hexpectedUsed : expected.contains p.expected = (l.actualFor? p.expected).isSome := by
        rw [Bool.eq_iff_iff, Std.TreeSet.contains_iff_mem, hexpected, isSome_actualFor?_iff]
      have hactualUsed : actual.contains p.actual = (l.expectedFor? p.actual).isSome := by
        rw [Bool.eq_iff_iff, Std.TreeSet.contains_iff_mem, hactual, isSome_expectedFor?_iff]
      rw [List.foldlM_cons, addFresh, add, hexpectedUsed, hactualUsed]
      split
      · rfl
      · split
        · rfl
        · rw [ok_bind]
          exact ih (mem_insert_iff_mem_push hexpected p) (mem_insert_iff_mem_push hactual p)

theorem addAll_eq_foldlM_add (l : Pairing) (pairs : List IndexPair) :
    l.addAll pairs = pairs.foldlM add l :=
  addFresh_eq_foldlM_add (mem_ofList_newest l _) (mem_ofList_newest l _)

/-- What is reported for a pair with an index that is used already. -/
inductive Reuses (used : List IndexPair) (p : IndexPair) : MatchError → Prop
  | expected (h : p.expected ∈ used.map (·.expected)) :
      Reuses used p (.indexReused .expected p.expected)
  | actual (hfree : p.expected ∉ used.map (·.expected)) (h : p.actual ∈ used.map (·.actual)) :
      Reuses used p (.indexReused .actual p.actual)

theorem add_eq_error_iff : l.add p = .error e ↔ Reuses l.toList p e := by
  constructor
  · intro h
    unfold add at h
    split at h
    · next hexpected =>
      cases h
      exact .expected (isSome_actualFor?_iff.mp hexpected)
    · next hexpected =>
      split at h
      · next hactual =>
        cases h
        exact .actual (mt isSome_actualFor?_iff.mpr hexpected) (isSome_expectedFor?_iff.mp hactual)
      · cases h
  · intro h
    cases h with
    | expected h => rw [add, if_pos (isSome_actualFor?_iff.mpr h)]
    | actual hfree h =>
        rw [add, if_neg (mt isSome_actualFor?_iff.mp hfree), if_pos (isSome_expectedFor?_iff.mpr h)]

/-- Pairs are refused for the first of them that uses an index again. -/
theorem foldlM_add_eq_error_iff (h : Distinct l.toList) :
    pairs.foldlM add l = .error e ↔
      ∃ before p after, pairs = before ++ p :: after ∧
        Distinct (l.toList ++ before) ∧ Reuses (l.toList ++ before) p e := by
  induction pairs generalizing l with
  | nil => simp [pure, Except.pure]
  | cons q pairs ih =>
      rw [List.foldlM_cons, bind_eq_error_iff]
      constructor
      · rintro (hq | ⟨next, hq, hrest⟩)
        · exact ⟨[], q, pairs, rfl, by simpa using h, by simpa using add_eq_error_iff.mp hq⟩
        · obtain ⟨htoList, hdistinct⟩ := (add_eq_ok_iff h).mp hq
          obtain ⟨before, p, after, rfl, hbefore, hreuses⟩ :=
            (ih (htoList ▸ hdistinct)).mp hrest
          rw [htoList, List.append_assoc, List.singleton_append] at hbefore hreuses
          exact ⟨q :: before, p, after, rfl, hbefore, hreuses⟩
      · rintro ⟨_ | ⟨q', before⟩, p, after, heq, hbefore, hreuses⟩
        · cases heq
          exact .inl (add_eq_error_iff.mpr (by simpa using hreuses))
        · cases heq
          have hq : Distinct (l.toList ++ [q]) := hbefore.sublist (by simp)
          refine .inr ⟨l.push q, (add_eq_ok_iff h).mpr ⟨toList_push l q, hq⟩, ?_⟩
          rw [← toList_push] at hq
          rw [← List.singleton_append, ← List.append_assoc, ← toList_push] at hbefore hreuses
          exact (ih hq).mpr ⟨before, p, after, rfl, hbefore, hreuses⟩

/-- Adding many pairs at once is adding them one by one. -/
theorem addAll_in_turn (h : l.Built) (pairs : List IndexPair) :
    l.addAll pairs = pairs.foldlM add l ∧
      ofList pairs = pairs.foldlM add empty ∧
      (∀ other : Pairing, l.concat other = other.toList.foldlM add l) ∧
      (∀ next, pairs.foldlM add l = .ok next ↔
        next.toList = l.toList ++ pairs ∧ Distinct (l.toList ++ pairs)) ∧
      ∀ e, pairs.foldlM add l = .error e ↔
        ∃ before p after, pairs = before ++ p :: after ∧
          Distinct (l.toList ++ before) ∧ Reuses (l.toList ++ before) p e := by
  refine ⟨addAll_eq_foldlM_add l pairs, addAll_eq_foldlM_add empty pairs, ?_, ?_, ?_⟩
  · intro other
    exact addAll_eq_foldlM_add l other.toList
  · intro next
    rw [← addAll_eq_foldlM_add, addAll_eq_ok_iff h.distinct]
  · intro e
    exact foldlM_add_eq_error_iff h.distinct

/-- Both indices of the second pair are used, one by the pair before it and one by `crossed`. -/
theorem addAll_in_turn_crossed :
    crossed.Built ∧
      crossed.addAll [⟨1, 2⟩, ⟨1, 5⟩, ⟨0, 7⟩] = .error (.indexReused .expected 1) ∧
      [⟨1, 2⟩, ⟨1, 5⟩, ⟨0, 7⟩].foldlM add crossed = .error (.indexReused .expected 1) := by
  obtain ⟨hsame, _, _, _, herror⟩ := addAll_in_turn built_crossed [⟨1, 2⟩, ⟨1, 5⟩, ⟨0, 7⟩]
  have hfail := (herror (.indexReused .expected 1)).mpr
    ⟨[⟨1, 2⟩], ⟨1, 5⟩, [⟨0, 7⟩], rfl, ⟨by decide, by decide⟩, .expected (by decide)⟩
  exact ⟨built_crossed, hsame.trans hfail, hfail⟩

end Pairing

end TableDiff
