/-!
# Stable sorting

Lists are sorted by a comparison of their elements; elements that it does not tell apart keep their
order.
-/

namespace TableDiff

/-- The elements in ascending order. -/
def sortBy {α : Type} (cmp : α → α → Ordering) (l : List α) : List α :=
  l.mergeSort fun a b => (cmp a b).isLE

theorem sortBy_perm {α : Type} (cmp : α → α → Ordering) (l : List α) : (sortBy cmp l).Perm l :=
  List.mergeSort_perm l _

@[simp] theorem mem_sortBy {α : Type} (cmp : α → α → Ordering) {l : List α} {a : α} :
    a ∈ sortBy cmp l ↔ a ∈ l :=
  (sortBy_perm cmp l).mem_iff

theorem isLE_or_isLE {α : Type} (cmp : α → α → Ordering) [Std.OrientedCmp cmp] (a b : α) :
    ((cmp a b).isLE || (cmp b a).isLE) = true := by
  rw [show cmp a b = (cmp b a).swap from Std.OrientedCmp.eq_swap]
  cases cmp b a <;> rfl

theorem pairwise_sortBy {α : Type} (cmp : α → α → Ordering) [Std.TransCmp cmp] (l : List α) :
    (sortBy cmp l).Pairwise fun a b => (cmp a b).isLE = true := by
  apply List.pairwise_mergeSort
  · intro _ _ _ hab hbc
    exact Std.TransCmp.isLE_trans hab hbc
  · exact isLE_or_isLE cmp

/-- Elements that the comparison does not tell apart keep their order. -/
theorem pairwise_sortBy_stable {α : Type} (cmp : α → α → Ordering) [Std.TransCmp cmp]
    {R : α → α → Prop} {l : List α} (hl : l.Pairwise R) :
    (sortBy cmp l).Pairwise fun a b => cmp a b = .lt ∨ cmp a b = .eq ∧ R a b := by
  let le := fun a b => (cmp a b).isLE
  have htrans : ∀ a b c, le a b → le b c → le a c := by
    intro _ _ _ hab hbc
    exact Std.TransCmp.isLE_trans hab hbc
  have hperm := List.mergeSort_perm l.zipIdx (List.zipIdxLE le)
  have hsorted := List.pairwise_mergeSort (List.zipIdxLE_trans htrans)
    (List.zipIdxLE_total (isLE_or_isLE cmp : ∀ a b, le a b || le b a)) l.zipIdx
  have hplaces : ((l.zipIdx.mergeSort (List.zipIdxLE le)).map (·.2)).Nodup := by
    rw [(hperm.map (·.2)).nodup_iff, List.zipIdx_map_snd]
    exact List.nodup_range'
  rw [sortBy, ← List.mergeSort_zipIdx, List.pairwise_map]
  refine (hsorted.and (List.pairwise_map.1 hplaces)).imp_of_mem ?_
  rintro ⟨a, i⟩ ⟨b, j⟩ ha hb ⟨hle, hne⟩
  have hi := List.mk_mem_zipIdx_iff_getElem?.1 (hperm.mem_iff.1 ha)
  have hj := List.mk_mem_zipIdx_iff_getElem?.1 (hperm.mem_iff.1 hb)
  obtain ⟨hlti, rfl⟩ := List.getElem?_eq_some_iff.1 hi
  obtain ⟨hltj, rfl⟩ := List.getElem?_eq_some_iff.1 hj
  dsimp only at hle hne ⊢
  cases hcmp : cmp l[i] l[j] with
  | lt => exact .inl rfl
  | gt => simp [List.zipIdxLE, le, hcmp] at hle
  | eq =>
    have hij : i ≤ j := by
      have hsymm : cmp l[j] l[i] = .eq := Std.OrientedCmp.eq_comm.1 hcmp
      simpa [List.zipIdxLE, le, hcmp, hsymm] using hle
    exact .inr ⟨rfl, List.pairwise_iff_getElem.1 hl i j hlti hltj (by omega)⟩

theorem pairwise_sortBy_key {α : Type} (key : α → Nat) {R : α → α → Prop} {l : List α}
    (hl : l.Pairwise R) :
    (sortBy (compareOn key) l).Pairwise fun a b => key a < key b ∨ key a = key b ∧ R a b := by
  refine (pairwise_sortBy_stable (compareOn key) hl).imp ?_
  intro a b h
  simpa only [compareOn, Nat.compare_eq_lt, Nat.compare_eq_eq] using h

end TableDiff
