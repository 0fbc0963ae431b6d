import TableDiff.Proofs.Pairing

/-!
# Pairings that the operations make

A pairing is made from nothing or from a list of pairs; it is extended by a pair or by another
pairing, and its sides are exchanged.  The operations check for used indices in different ways, and
exchanging the sides checks nothing, but none of them ever puts an index into two pairs.  So the two
lookups find just the pairs and are inverse to each other, and the pairs are listed in the order in
which they were added.
-/

namespace TableDiff

namespace Pairing

variable {l next : Pairing} {pairs : List IndexPair} {p : IndexPair} {i j : Nat}

/-! ## Lookups -/

theorem isSome_actualFor?_iff : (l.actualFor? i).isSome = true ↔ i ∈ l.toList.map (·.expected) := by
  rw [Option.isSome_iff_ne_none, ne_eq, actualFor?_eq_none_iff]
  simp

theorem isSome_expectedFor?_iff :
    (l.expectedFor? j).isSome = true ↔ j ∈ l.toList.map (·.actual) := by
  rw [Option.isSome_iff_ne_none, ne_eq, expectedFor?_eq_none_iff]
  simp

theorem actualFor?_eq_some_iff (h : Distinct l.toList) :
    l.actualFor? i = some j ↔ ⟨i, j⟩ ∈ l.toList := by
  have hfound : ∀ k, l.actualFor? i = some k → ⟨i, k⟩ ∈ l.toList := by
    intro k hk
    obtain ⟨⟨i', _⟩, hfind, rfl⟩ := Option.map_eq_some_iff.mp hk
    obtain rfl : i' = i := by simpa using List.find?_some hfind
    exact mem_toList.mpr (List.mem_of_find?_eq_some hfind)
  constructor
  · exact hfound j
  · intro hmem
    have hsome : (l.actualFor? i).isSome = true := by
      rw [isSome_actualFor?_iff]
      exact List.mem_map_of_mem hmem
    obtain ⟨k, hk⟩ := Option.isSome_iff_exists.mp hsome
    have hsame : (⟨i, k⟩ : IndexPair) = ⟨i, j⟩ :=
      List.inj_on_of_nodup_map h.expected (hfound k hk) hmem rfl
    cases hsame
    exact hk

/-! ## Exchanging the sides -/

/-- The pairs are exchanged in turn, and none is checked. -/
theorem swapped_eq_foldl_push (l : Pairing) :
    l.swapped = l.toList.foldl (fun swapped p => swapped.push p.swap) empty := by
  have hpush : ∀ (pairs : List IndexPair) (swapped : Pairing),
      (pairs.foldl (fun swapped p => swapped.push p.swap) swapped).newest =
        (pairs.map IndexPair.swap).reverse ++ swapped.newest := by
    intro pairs
    induction pairs with
    | nil =>
        intro swapped
        rfl
    | cons p pairs ih =>
        intro swapped
        rw [List.foldl_cons, ih, newest_push, List.map_cons, List.reverse_cons, List.append_assoc,
          List.singleton_append]
  apply Pairing.ext
  rw [hpush, toList, List.map_reverse, List.reverse_reverse, empty, List.append_nil,
    newest_swapped]

theorem actualFor?_swapped (l : Pairing) (i : Nat) : l.swapped.actualFor? i = l.expectedFor? i := by
  rw [actualFor?, expectedFor?, swapped, List.find?_map, Option.map_map]
  rfl

theorem swapped_swapped (l : Pairing) : l.swapped.swapped = l := by
  have htwice : IndexPair.swap ∘ IndexPair.swap = id := rfl
  apply Pairing.ext
  rw [newest_swapped, newest_swapped, List.map_map, htwice, List.map_id]

theorem expectedFor?_swapped (l : Pairing) (i : Nat) :
    l.swapped.expectedFor? i = l.actualFor? i := by
  rw [← actualFor?_swapped, swapped_swapped]

theorem distinct_swapped (h : Distinct l.toList) : Distinct l.swapped.toList := by
  rw [toList_swapped]
  exact h.swap

theorem expectedFor?_eq_some_iff (h : Distinct l.toList) :
    l.expectedFor? j = some i ↔ ⟨i, j⟩ ∈ l.toList := by
  rw [← actualFor?_swapped, actualFor?_eq_some_iff (distinct_swapped h), toList_swapped,
    List.mem_map_of_involutive fun _ => rfl]
  rfl

/-! ## Adding pairs -/

/-- Indices that no set holds are indices that do not occur yet. -/
theorem fresh_iff_nodup_append {set : Std.TreeSet Nat} {used indices : List Nat}
    (hset : ∀ i, i ∈ set ↔ i ∈ used) (hused : used.Nodup) :
    Fresh set indices ↔ (used ++ indices).Nodup := by
  simp only [Fresh, hset, List.nodup_append', hused, true_and, List.disjoint_right]

theorem mem_ofList_newest (l : Pairing) (f : IndexPair → Nat) (i : Nat) :
    i ∈ Std.TreeSet.ofList (l.newest.map f) ↔ i ∈ l.toList.map f := by
  rw [Std.TreeSet.mem_ofList, List.contains_iff_mem, toList, List.map_reverse, List.mem_reverse]

theorem addAll_eq_ok_iff (h : Distinct l.toList) :
    l.addAll pairs = .ok next ↔
      next.toList = l.toList ++ pairs ∧ Distinct (l.toList ++ pairs) := by
  rw [addAll, addFresh_eq_ok_iff, fresh_iff_nodup_append (mem_ofList_newest l _) h.expected,
    fresh_iff_nodup_append (mem_ofList_newest l _) h.actual, distinct_iff, List.map_append,
    List.map_append]

theorem add_eq_ok_iff (h : Distinct l.toList) :
    l.add p = .ok next ↔ next.toList = l.toList ++ [p] ∧ Distinct (l.toList ++ [p]) := by
  rw [distinct_concat_iff h, ← isSome_actualFor?_iff, ← isSome_expectedFor?_iff, ← toList_push,
    toList_inj, eq_comm]
  unfold add
  split
  · next hexpected => simp [hexpected]
  · next hexpected =>
    split
    · next hactual => simp [hactual]
    · next hactual => simp [hexpected, hactual]

/-! ## What is made -/

/-- A pairing that the operations make. -/
inductive Built : Pairing → Prop
  | empty : Built Pairing.empty
  | ofList {pairs : List IndexPair} {l : Pairing} (h : Pairing.ofList pairs = .ok l) : Built l
  | add {l next : Pairing} (p : IndexPair) (hl : Built l) (h : l.add p = .ok next) : Built next
  | concat {l other next : Pairing} (hl : Built l) (hother : Built other)
      (h : l.concat other = .ok next) : Built next
  | swapped {l : Pairing} (hl : Built l) : Built l.swapped

theorem Built.distinct (h : l.Built) : Distinct l.toList := by
  induction h with
  | empty => exact ⟨.nil, .nil⟩
  | ofList h =>
      obtain ⟨rfl, hdistinct⟩ := ofList_eq_ok_iff.mp h
      exact hdistinct
  | add p _ h ih =>
      obtain ⟨htoList, hdistinct⟩ := (add_eq_ok_iff ih).mp h
      exact htoList ▸ hdistinct
  | concat _ _ h ih _ =>
      obtain ⟨htoList, hdistinct⟩ := (addAll_eq_ok_iff ih).mp h
      exact htoList ▸ hdistinct
  | swapped _ ih => exact distinct_swapped ih

/-- What the operations make is all that has every index in one pair at most. -/
theorem built_iff_distinct : l.Built ↔ Distinct l.toList := by
  constructor
  · intro hbuilt
    exact hbuilt.distinct
  · intro hdistinct
    have hlist : ofList l.toList = .ok l := by
      rw [ofList_eq_ok_iff]
      exact ⟨rfl, hdistinct⟩
    exact .ofList hlist

/-- Every pairing is a partial bijection with its pairs in the order in which they were added. -/
theorem partialBijection_of_built (h : l.Built) :
    Distinct l.toList ∧
      (l.size = l.toList.length ∧ (l.isEmpty = true ↔ l.toList = [])) ∧
      (∀ i j, (l.actualFor? i = some j ↔ l.expectedFor? j = some i) ∧
        (l.expectedFor? j = some i ↔ ⟨i, j⟩ ∈ l.toList)) ∧
      (Pairing.empty.toList = [] ∧
        (∀ pairs next, Pairing.ofList pairs = .ok next ↔ next.toList = pairs ∧ Distinct pairs) ∧
        (∀ p next, l.add p = .ok next ↔
          next.toList = l.toList ++ [p] ∧ Distinct (l.toList ++ [p])) ∧
        ∀ other next, l.concat other = .ok next ↔
          next.toList = l.toList ++ other.toList ∧ Distinct (l.toList ++ other.toList)) ∧
      l.swapped = l.toList.foldl (fun swapped p => swapped.push p.swap) Pairing.empty ∧
        l.swapped.toList = l.toList.map IndexPair.swap ∧
        (∀ i, l.swapped.actualFor? i = l.expectedFor? i) ∧
        (∀ i, l.swapped.expectedFor? i = l.actualFor? i) ∧
        l.swapped.swapped = l := by
  have hdistinct := h.distinct
  refine ⟨hdistinct, ⟨(length_toList l).symm, ?_⟩, ?_, ⟨toList_empty, ?_, ?_, ?_⟩,
    swapped_eq_foldl_push l, toList_swapped l, actualFor?_swapped l, expectedFor?_swapped l,
    swapped_swapped l⟩
  · rw [isEmpty, beq_iff_eq, ← length_toList, List.length_eq_zero_iff]
  · intro i j
    constructor
    · rw [actualFor?_eq_some_iff hdistinct, expectedFor?_eq_some_iff hdistinct]
    · exact expectedFor?_eq_some_iff hdistinct
  · intro pairs next
    exact ofList_eq_ok_iff
  · intro p next
    exact add_eq_ok_iff hdistinct
  · intro other next
    exact addAll_eq_ok_iff hdistinct

/-- Two pairs that cross. -/
def crossed : Pairing := ⟨[⟨3, 1⟩, ⟨0, 5⟩], 2, rfl⟩

theorem built_crossed : crossed.Built := by
  rw [built_iff_distinct]
  exact ⟨by decide, by decide⟩

theorem partialBijection_of_built_crossed :
    crossed.Built ∧ crossed.swapped.toList = [⟨5, 0⟩, ⟨1, 3⟩] ∧
      crossed.actualFor? 3 = some 1 ∧ crossed.swapped.actualFor? 1 = some 3 := by
  obtain ⟨_, _, hlookup, _, _, hswapped, hactual, _⟩ := partialBijection_of_built built_crossed
  have hpair : (⟨3, 1⟩ : IndexPair) ∈ crossed.toList := by decide
  have hexpected := (hlookup 3 1).2.mpr hpair
  exact ⟨built_crossed, hswapped, (hlookup 3 1).1.mpr hexpected, (hactual 1).trans hexpected⟩

end Pairing

end TableDiff
