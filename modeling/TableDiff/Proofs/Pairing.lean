import TableDiff.Pairing
import TableDiff.Proofs.DiffLine

/-!
# Pairings use every index once

A list of pairs is accepted as a pairing exactly when no index of either side occurs twice in it.
The lines of a pairing then cover the given indices: an expected index without a partner and an
actual index that is nobody's partner stand alone.
-/

namespace TableDiff

namespace Pairing

variable {l l' : Pairing} {pairs : List IndexPair}

theorem toList_eq_reverse (l : Pairing) : l.toList = l.newest.reverse := rfl

theorem toList_inj : l.toList = l'.toList ↔ l = l' := by
  rw [toList_eq_reverse, toList_eq_reverse, List.reverse_inj]
  constructor
  · exact Pairing.ext
  · intro h
    rw [h]

/-- Indices that occur once and have not been used before. -/
def Fresh (used : Std.TreeSet Nat) (indices : List Nat) : Prop :=
  indices.Nodup ∧ ∀ i ∈ indices, i ∉ used

theorem mem_insert_iff {used : Std.TreeSet Nat} {i k : Nat} :
    k ∈ used.insert i ↔ i = k ∨ k ∈ used := by
  rw [Std.TreeSet.mem_insert, Std.compare_eq_iff_eq]

theorem fresh_cons_iff {used : Std.TreeSet Nat} {i : Nat} {indices : List Nat} :
    Fresh used (i :: indices) ↔ i ∉ used ∧ Fresh (used.insert i) indices := by
  unfold Fresh
  rw [List.nodup_cons, List.forall_mem_cons]
  constructor
  · intro h
    refine ⟨h.2.1, h.1.2, ?_⟩
    intro k hk hmem
    rcases mem_insert_iff.mp hmem with rfl | hmem
    · exact h.1.1 hk
    · exact h.2.2 k hk hmem
  · intro h
    refine ⟨⟨?_, h.2.1⟩, h.1, ?_⟩
    · intro hi
      exact h.2.2 i hi (mem_insert_iff.mpr (.inl rfl))
    · intro k hk hmem
      exact h.2.2 k hk (mem_insert_iff.mpr (.inr hmem))

theorem addFresh_eq_ok_iff {expected actual : Std.TreeSet Nat} :
    addFresh expected actual l pairs = .ok l' ↔
      l'.toList = l.toList ++ pairs ∧
      Fresh expected (pairs.map (·.expected)) ∧ Fresh actual (pairs.map (·.actual)) := by
  induction pairs generalizing expected actual l with
  | nil =>
      simp [addFresh, Fresh, toList_inj, eq_comm]
  | cons p pairs ih =>
      rw [List.map_cons, List.map_cons, fresh_cons_iff, fresh_cons_iff]
      unfold addFresh
      split
      · next hexpected =>
        have hmem : p.expected ∈ expected := Std.TreeSet.contains_iff_mem.mp hexpected
        simp [hmem]
      · next hexpected =>
        rw [Std.TreeSet.contains_iff_mem] at hexpected
        split
        · next hactual =>
          have hmem : p.actual ∈ actual := Std.TreeSet.contains_iff_mem.mp hactual
          simp [hmem]
        · next hactual =>
          rw [Std.TreeSet.contains_iff_mem] at hactual
          rw [ih, toList_push, List.append_assoc, List.singleton_append]
          simp [hexpected, hactual]

/-- No index of either side is in two pairs. -/
@[mk_iff]
structure Distinct (pairs : List IndexPair) : Prop where
  expected : (pairs.map (·.expected)).Nodup
  actual : (pairs.map (·.actual)).Nodup

theorem Distinct.perm {pairs' : List IndexPair} (h : Distinct pairs) (hperm : pairs.Perm pairs') :
    Distinct pairs' where
  expected := (hperm.map _).nodup_iff.mp h.expected
  actual := (hperm.map _).nodup_iff.mp h.actual

theorem Distinct.sublist {pairs' : List IndexPair} (h : Distinct pairs)
    (hsub : pairs'.Sublist pairs) : Distinct pairs' where
  expected := h.expected.sublist (hsub.map _)
  actual := h.actual.sublist (hsub.map _)

theorem Distinct.swap (h : Distinct pairs) : Distinct (pairs.map IndexPair.swap) where
  expected := by
    rw [List.map_map]
    exact h.actual
  actual := by
    rw [List.map_map]
    exact h.expected

theorem distinct_concat_iff (h : Distinct pairs) {p : IndexPair} :
    Distinct (pairs ++ [p]) ↔
      p.expected ∉ pairs.map (·.expected) ∧ p.actual ∉ pairs.map (·.actual) := by
  rw [distinct_iff, List.map_append, List.map_append, List.nodup_append', List.nodup_append']
  simp [h.expected, h.actual]

theorem ofList_eq_ok_iff :
    ofList pairs = .ok l ↔ l.toList = pairs ∧ Distinct pairs := by
  rw [ofList, addAll, addFresh_eq_ok_iff]
  simp only [Fresh, empty, List.map_nil, Std.TreeSet.ofList_nil, Std.TreeSet.not_mem_emptyc,
    not_false_eq_true, implies_true, and_true, toList, List.reverse_nil, List.nil_append]
  refine and_congr_right ?_
  intro _
  constructor
  · rintro ⟨hexpected, hactual⟩
    exact ⟨hexpected, hactual⟩
  · rintro ⟨hexpected, hactual⟩
    exact ⟨hexpected, hactual⟩

theorem ofList_eq_ok (h : Distinct pairs) : ∃ l, ofList pairs = .ok l := by
  refine ⟨⟨pairs.reverse, pairs.reverse.length, rfl⟩, ?_⟩
  rw [ofList_eq_ok_iff]
  refine ⟨?_, h⟩
  rw [toList, List.reverse_reverse]

theorem mem_toList {p : IndexPair} : p ∈ l.toList ↔ p ∈ l.newest := by
  rw [toList_eq_reverse, List.mem_reverse]

theorem actualFor?_eq_none_iff {i : Nat} :
    l.actualFor? i = none ↔ ∀ p ∈ l.toList, p.expected ≠ i := by
  simp [actualFor?, mem_toList]

theorem expectedFor?_eq_none_iff {j : Nat} :
    l.expectedFor? j = none ↔ ∀ p ∈ l.toList, p.actual ≠ j := by
  simp [expectedFor?, mem_toList]

theorem add_eq_ok {p : IndexPair}
    (hexpected : ∀ q ∈ l.toList, q.expected ≠ p.expected)
    (hactual : ∀ q ∈ l.toList, q.actual ≠ p.actual) :
    l.add p = .ok (l.push p) := by
  rw [← actualFor?_eq_none_iff] at hexpected
  rw [← expectedFor?_eq_none_iff] at hactual
  simp [add, hexpected, hactual]

/-! ## The lines of a pairing -/

theorem Distinct.eq_of_actual_eq (h : Distinct pairs) {p q : IndexPair}
    (hp : p ∈ pairs) (hq : q ∈ pairs) (heq : p.actual = q.actual) : p = q :=
  List.inj_on_of_nodup_map h.actual hp hq heq

/-- The partner that the lines show for an expected index. -/
def partner? (l : Pairing) (i : Nat) : Option Nat :=
  (Std.TreeMap.ofList (l.newest.map fun p => (p.expected, p.actual)))[i]?

theorem partner?_eq_some_iff (h : Distinct l.toList) {i j : Nat} :
    l.partner? i = some j ↔ ⟨i, j⟩ ∈ l.toList := by
  have hkeys : (l.newest.map fun p => (p.expected, p.actual)).Pairwise
      fun a b => ¬compare a.1 b.1 = .eq := by
    have hnodup := h.expected
    rw [toList_eq_reverse, List.map_reverse, List.nodup_reverse] at hnodup
    rw [List.pairwise_map]
    refine (List.pairwise_map.mp hnodup).imp fun hne => ?_
    rw [Std.compare_eq_iff_eq]
    exact hne
  have hget : ∀ k, (⟨i, k⟩ : IndexPair) ∈ l.toList → l.partner? i = some k := by
    intro k hk
    apply Std.TreeMap.getElem?_ofList_of_mem (k := i) (by simp) hkeys
    exact List.mem_map.mpr ⟨_, mem_toList.mp hk, rfl⟩
  constructor
  · intro hj
    by_cases hmem : ∃ k, (⟨i, k⟩ : IndexPair) ∈ l.toList
    · rcases hmem with ⟨k, hk⟩
      have hkj : k = j := Option.some.inj ((hget k hk).symm.trans hj)
      exact hkj ▸ hk
    · have hnone : l.partner? i = none := by
        apply Std.TreeMap.getElem?_ofList_of_contains_eq_false
        simp only [List.map_map, List.contains_eq_mem, List.mem_map,
          Function.comp_apply, decide_eq_false_iff_not]
        intro hp
        rcases hp with ⟨p, hp, rfl⟩
        exact hmem ⟨p.actual, mem_toList.mpr hp⟩
      rw [hnone] at hj
      cases hj
  · exact hget j

theorem aligned_eq (h : Distinct l.toList) (expected actual : List Nat) :
    l.aligned expected actual =
      expected.map (fun i => ⟨some i, l.partner? i⟩) ++
        (actual.filter fun j => decide (j ∉ l.toList.map (·.actual))).map
          DiffLine.actualOnly := by
  rw [aligned]
  congr 3
  funext j
  rw [Bool.eq_iff_iff, Bool.not_eq_true', ← Bool.not_eq_true, Std.TreeSet.contains_ofList,
    List.contains_eq_mem, decide_eq_true_eq, decide_eq_true_eq, not_iff_not]
  constructor
  · intro hj
    obtain ⟨⟨i, _⟩, hmem, rfl⟩ := List.mem_map.mp hj
    have hpartner := Std.TreeMap.mem_toList_iff_getElem?_eq_some.mp hmem
    exact List.mem_map.mpr ⟨_, (partner?_eq_some_iff h).mp hpartner, rfl⟩
  · intro hj
    obtain ⟨p, hp, rfl⟩ := List.mem_map.mp hj
    have hpartner := (partner?_eq_some_iff h).mpr hp
    exact List.mem_map.mpr ⟨_, Std.TreeMap.mem_toList_iff_getElem?_eq_some.mpr hpartner, rfl⟩

variable {expected actual : List Nat}

theorem filterMap_actual?_aligned (h : Distinct l.toList) :
    (l.aligned expected actual).filterMap (·.actual?) =
      expected.filterMap l.partner? ++
        actual.filter fun j => decide (j ∉ l.toList.map (·.actual)) := by
  rw [aligned_eq h, List.filterMap_append, List.filterMap_map, List.filterMap_map]
  simp [Function.comp_def, DiffLine.actualOnly]

theorem mem_filterMap_partner?_iff (h : Distinct l.toList)
    (hleft : ∀ p ∈ l.toList, p.expected ∈ expected) {j : Nat} :
    j ∈ expected.filterMap l.partner? ↔ j ∈ l.toList.map (·.actual) := by
  rw [List.mem_filterMap, List.mem_map]
  constructor
  · intro hj
    rcases hj with ⟨i, _, hij⟩
    exact ⟨⟨i, j⟩, (partner?_eq_some_iff h).mp hij, rfl⟩
  · intro hj
    rcases hj with ⟨p, hp, rfl⟩
    exact ⟨p.expected, hleft p hp, (partner?_eq_some_iff h).mpr hp⟩

theorem nodup_filterMap_partner? (h : Distinct l.toList) (hexpected : expected.Nodup) :
    (expected.filterMap l.partner?).Nodup := by
  apply List.Nodup.filterMap _ hexpected
  intro i i' j hi hi'
  have hp := (partner?_eq_some_iff h).mp hi
  have hp' := (partner?_eq_some_iff h).mp hi'
  exact congrArg IndexPair.expected (h.eq_of_actual_eq hp hp' rfl)

/-- Lines of a pairing show all given indices once, if the pairs are among them. -/
theorem covers_aligned
    (h : Distinct l.toList) (hexpected : expected.Nodup) (hactual : actual.Nodup)
    (hleft : ∀ p ∈ l.toList, p.expected ∈ expected)
    (hright : ∀ p ∈ l.toList, p.actual ∈ actual) :
    DiffLine.Covers (l.aligned expected actual) expected actual where
  expected_perm := by
    rw [aligned_eq h, List.filterMap_append, List.filterMap_map, List.filterMap_map]
    simp [Function.comp_def, DiffLine.actualOnly]
  actual_perm := by
    rw [filterMap_actual?_aligned h]
    apply (List.perm_ext_iff_of_nodup ?_ hactual).mpr
    · intro j
      rw [List.mem_append, mem_filterMap_partner?_iff h hleft, List.mem_filter,
        decide_eq_true_eq]
      constructor
      · intro hj
        rcases hj with hj | ⟨hj, _⟩
        · rcases List.mem_map.mp hj with ⟨p, hp, rfl⟩
          exact hright p hp
        · exact hj
      · intro hj
        by_cases hused : j ∈ l.toList.map (·.actual)
        · exact .inl hused
        · exact .inr ⟨hj, hused⟩
    · rw [List.nodup_append]
      refine ⟨nodup_filterMap_partner? h hexpected, hactual.filter _, ?_⟩
      intro j hj k hk heq
      have hfree := (List.mem_filter.mp hk).2
      rw [decide_eq_true_eq, ← heq] at hfree
      exact hfree ((mem_filterMap_partner?_iff h hleft).mp hj)
  nonempty := by
    intro line hline
    rw [aligned_eq h, List.mem_append] at hline
    rcases hline with hline | hline
    · rcases List.mem_map.mp hline with ⟨i, _, rfl⟩
      simp
    · rcases List.mem_map.mp hline with ⟨j, _, rfl⟩
      simp [DiffLine.actualOnly]

theorem mem_of_both_mem_aligned
    (h : Distinct l.toList) {i j : Nat}
    (hline : DiffLine.both i j ∈ l.aligned expected actual) :
    ⟨i, j⟩ ∈ l.toList := by
  rw [aligned_eq h, List.mem_append] at hline
  rcases hline with hline | hline
  · rcases List.mem_map.mp hline with ⟨i', _, heq⟩
    have hboth : i' = i ∧ l.partner? i' = some j := by
      simpa [DiffLine.both] using heq
    rcases hboth with ⟨rfl, hj⟩
    exact (partner?_eq_some_iff h).mp hj
  · rcases List.mem_map.mp hline with ⟨j', _, heq⟩
    simp [DiffLine.actualOnly, DiffLine.both] at heq

/-- The lines are the pairs and the indices without a partner. -/
theorem mem_aligned_iff (h : Distinct l.toList) (hleft : ∀ p ∈ l.toList, p.expected ∈ expected)
    {line : DiffLine} :
    line ∈ l.aligned expected actual ↔
      (∃ p ∈ l.toList, line = .both p.expected p.actual) ∨
        (∃ i ∈ expected, (∀ p ∈ l.toList, p.expected ≠ i) ∧ line = .expectedOnly i) ∨
        ∃ j ∈ actual, (∀ p ∈ l.toList, p.actual ≠ j) ∧ line = .actualOnly j := by
  rw [aligned_eq h, List.mem_append, ← or_assoc]
  refine or_congr ?_ ?_
  · rw [List.mem_map]
    constructor
    · rintro ⟨i, hi, rfl⟩
      cases hpartner : l.partner? i with
      | some j => exact .inl ⟨_, (partner?_eq_some_iff h).mp hpartner, rfl⟩
      | none =>
          refine .inr ⟨i, hi, ?_, rfl⟩
          rintro p hp rfl
          cases hpartner.symm.trans ((partner?_eq_some_iff h).mpr hp)
    · rintro (⟨p, hp, rfl⟩ | ⟨i, hi, hnone, rfl⟩)
      · refine ⟨p.expected, hleft p hp, ?_⟩
        rw [(partner?_eq_some_iff h).mpr hp]
        rfl
      · refine ⟨i, hi, ?_⟩
        cases hpartner : l.partner? i with
        | some j => exact absurd rfl (hnone _ ((partner?_eq_some_iff h).mp hpartner))
        | none => rfl
  · simp only [List.mem_map, List.mem_filter, decide_eq_true_eq, not_exists, not_and]
    constructor
    · rintro ⟨j, ⟨hj, hnone⟩, rfl⟩
      exact ⟨j, hj, hnone, rfl⟩
    · rintro ⟨j, hj, hnone, rfl⟩
      exact ⟨j, ⟨hj, hnone⟩, rfl⟩

/-- A pairing with its sides exchanged has the lines with their sides exchanged. -/
theorem aligned_perm_map_swap (h : Distinct l.toList)
    (hperm : l'.toList.Perm (l.toList.map IndexPair.swap))
    (hexpected : expected.Nodup) (hactual : actual.Nodup)
    (hleft : ∀ p ∈ l.toList, p.expected ∈ expected) (hright : ∀ p ∈ l.toList, p.actual ∈ actual) :
    (l'.aligned actual expected).Perm ((l.aligned expected actual).map DiffLine.swap) := by
  have hmem : ∀ p, p ∈ l'.toList ↔ p.swap ∈ l.toList := by
    intro p
    rw [hperm.mem_iff, List.mem_map_of_involutive]
    intro _
    rfl
  have hforall : ∀ P : IndexPair → Prop,
      (∀ p ∈ l'.toList, P p) ↔ ∀ p ∈ l.toList, P p.swap := by
    intro P
    constructor
    · intro hall p hp
      exact hall p.swap ((hmem _).mpr hp)
    · intro hall p hp
      exact hall p.swap ((hmem p).mp hp)
  have h' : Distinct l'.toList := h.swap.perm hperm.symm
  have hleft' : ∀ p ∈ l'.toList, p.expected ∈ actual := (hforall _).mpr hright
  have hright' : ∀ p ∈ l'.toList, p.actual ∈ expected := (hforall _).mpr hleft
  have hlines := (covers_aligned h hexpected hactual hleft hright).nodup hexpected hactual
  have hlines' := (covers_aligned h' hactual hexpected hleft' hright').nodup hactual hexpected
  rw [List.perm_ext_iff_of_nodup hlines' (hlines.map DiffLine.swap_involutive.injective)]
  intro line
  rw [List.mem_map_of_involutive DiffLine.swap_involutive, mem_aligned_iff h hleft,
    mem_aligned_iff h' hleft']
  have hpairs : (∃ p ∈ l'.toList, line = .both p.expected p.actual) ↔
      ∃ p ∈ l.toList, line = .both p.actual p.expected := by
    constructor
    · rintro ⟨p, hp, heq⟩
      exact ⟨p.swap, (hmem p).mp hp, heq⟩
    · rintro ⟨p, hp, heq⟩
      exact ⟨p.swap, (hmem _).mpr hp, heq⟩
  rw [hpairs]
  simp only [hforall, IndexPair.swap, DiffLine.swap_involutive.eq_iff, DiffLine.swap_both,
    DiffLine.swap_expectedOnly, DiffLine.swap_actualOnly]
  exact or_congr Iff.rfl or_comm

/-- Where every actual index has a partner there is one line for each expected index. -/
theorem aligned_of_forall_mem (h : Distinct l.toList)
    (hactual : ∀ j ∈ actual, ∃ p ∈ l.toList, p.actual = j) :
    l.aligned expected actual = expected.map fun i => ⟨some i, l.partner? i⟩ := by
  have hnone : (actual.filter fun j => decide (j ∉ l.toList.map (·.actual))) = [] := by
    rw [List.filter_eq_nil_iff]
    intro j hj
    obtain ⟨p, hp, rfl⟩ := hactual j hj
    have hmem : p.actual ∈ l.toList.map (·.actual) := List.mem_map_of_mem hp
    simp [hmem]
  rw [aligned_eq h, hnone, List.map_nil, List.append_nil]

/-- The lines are complete when every given index is in a pair. -/
theorem all_isComplete_aligned
    (h : Distinct l.toList)
    (hexpected : ∀ i ∈ expected, ∃ p ∈ l.toList, p.expected = i)
    (hactual : ∀ j ∈ actual, ∃ p ∈ l.toList, p.actual = j) :
    (l.aligned expected actual).all DiffLine.isComplete = true := by
  rw [aligned_of_forall_mem h hactual, List.all_map, List.all_eq_true]
  intro i hi
  rcases hexpected i hi with ⟨p, hp, rfl⟩
  have hpartner := (partner?_eq_some_iff h).mpr hp
  simp [DiffLine.isComplete, hpartner]

/-- Indices that are all paired with themselves stand beside themselves. -/
theorem aligned_self {indices : List Nat} (h : Distinct l.toList)
    (hpairs : ∀ i ∈ indices, ⟨i, i⟩ ∈ l.toList) :
    l.aligned indices indices = indices.map fun i => DiffLine.both i i := by
  rw [aligned_of_forall_mem h fun j hj => ⟨_, hpairs j hj, rfl⟩]
  apply List.map_congr_left
  intro i hi
  rw [(partner?_eq_some_iff h).mpr (hpairs i hi)]
  rfl

end Pairing

end TableDiff
