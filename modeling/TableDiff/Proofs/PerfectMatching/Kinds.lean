import TableDiff.Proofs.PerfectMatching

/-!
# Elements of one kind

Elements that are of one kind can stand in for each other.  Two lists that hold equally many
elements of every kind are matched kind by kind, and whatever can be matched with one of them can
be matched with the other.
-/

namespace TableDiff

variable {α β γ δ : Type}

namespace Matchable

theorem of_forall₂ {R : α → β → Prop} {xs : List α} {ys : List β} (h : List.Forall₂ R xs ys) :
    Matchable R xs ys := by
  induction h with
  | nil => exact ⟨[], .nil⟩
  | cons hxy _ ih => exact ih.cons hxy

theorem imp {R S : α → β → Prop} {xs : List α} {ys : List β} (h : Matchable R xs ys)
    (himp : ∀ x y, R x y → S x y) : Matchable S xs ys := by
  obtain ⟨pairs, hpairs⟩ := h
  refine ⟨pairs, hpairs.left, hpairs.right, ?_⟩
  intro p hp
  exact himp p.1 p.2 (hpairs.related p hp)

theorem of_perm {xs ys : List α} (h : xs.Perm ys) : Matchable (· = ·) xs ys := by
  have hself : List.Forall₂ (· = ·) xs xs := by
    rw [List.forall₂_same]
    intro _ _
    rfl
  exact (of_forall₂ hself).perm (.refl xs) h

theorem swap {R : α → β → Prop} {xs : List α} {ys : List β} (h : Matchable R xs ys) :
    Matchable (flip R) ys xs := by
  obtain ⟨pairs, hpairs⟩ := h
  exact ⟨_, hpairs.swap⟩

theorem imp_of_mem {R S : α → β → Prop} {xs : List α} {ys : List β} (h : Matchable R xs ys)
    (himp : ∀ x ∈ xs, ∀ y ∈ ys, R x y → S x y) : Matchable S xs ys := by
  obtain ⟨pairs, hpairs⟩ := h
  refine ⟨pairs, hpairs.left, hpairs.right, ?_⟩
  intro p hp
  have hleft := hpairs.partialMatching.mem_left hp
  have hright := hpairs.partialMatching.mem_right hp
  exact himp p.1 hleft p.2 hright (hpairs.related p hp)

theorem flatMap {ι : Type} {R : α → β → Prop} {is : List ι} {f : ι → List α} {g : ι → List β}
    (h : ∀ i ∈ is, Matchable R (f i) (g i)) : Matchable R (is.flatMap f) (is.flatMap g) := by
  induction is with
  | nil => exact ⟨[], .nil⟩
  | cons i is ih =>
      rw [List.forall_mem_cons] at h
      obtain ⟨pairs, hpairs⟩ := h.1
      obtain ⟨pairs', hpairs'⟩ := ih h.2
      exact ⟨_, hpairs.append hpairs'⟩

/-- What is matched with the partners of other elements is matched with these elements. -/
theorem comp {R : α → β → Prop} {S : β → γ → Prop} {xs : List α} {ys : List β} {zs : List γ}
    (h : Matchable R xs ys) (h' : Matchable S ys zs) : Matchable (Relation.Comp R S) xs zs := by
  induction xs generalizing ys zs with
  | nil =>
      rw [nil_left_iff] at h
      rw [h, nil_left_iff] at h'
      rw [h']
      exact ⟨[], .nil⟩
  | cons x xs ih =>
      obtain ⟨y, ys', hxy, hys, hrest⟩ := h.exists_partner
      obtain ⟨z, zs', hyz, hzs, hrest'⟩ := (h'.perm hys (.refl zs)).exists_partner
      exact ((ih hrest hrest').cons ⟨y, hxy, hyz⟩).perm (.refl _) hzs.symm

/-- Matched elements of one kind are equally many of each kind. -/
theorem map_perm {κ : α → γ} {κ' : β → γ} {xs : List α} {ys : List β}
    (h : Matchable (fun x y => κ x = κ' y) xs ys) : (xs.map κ).Perm (ys.map κ') := by
  obtain ⟨pairs, hpairs⟩ := h
  have hkinds : (pairs.map Prod.fst).map κ = (pairs.map Prod.snd).map κ' := by
    rw [List.map_map, List.map_map]
    apply List.map_congr_left
    intro p hp
    exact hpairs.related p hp
  exact (hpairs.left.map κ).symm.trans (hkinds ▸ hpairs.right.map κ')

theorem of_map_perm {κ : α → γ} {κ' : β → γ} {xs : List α} {ys : List β}
    (h : (xs.map κ).Perm (ys.map κ')) : Matchable (fun x y => κ x = κ' y) xs ys :=
  matchable_map_iff.mp (of_perm h)

/-- Elements that have the same partners as others of their kind may be replaced kind by kind. -/
theorem of_kinds {R : α → β → Prop} {κ : β → δ} {xs : List α} {ys ys' : List β}
    (h : Matchable R xs ys) (hkinds : (ys.map κ).Perm (ys'.map κ))
    (hreplace : ∀ x ∈ xs, ∀ y ∈ ys, ∀ y' ∈ ys', κ y = κ y' → R x y → R x y') :
    Matchable R xs ys' := by
  have hmem : Matchable (fun x y => y ∈ ys ∧ R x y) xs ys := by
    apply h.imp_of_mem
    intro _ _ y hy hxy
    exact ⟨hy, hxy⟩
  refine (hmem.comp (of_map_perm hkinds)).imp_of_mem ?_
  rintro x hx y' hy' ⟨y, ⟨hy, hxy⟩, hkind⟩
  exact hreplace x hx y hy y' hy' hkind hxy

end Matchable

theorem matchable_map_right_iff {R : α → β → Prop} {g : γ → β} {xs : List α} {ys : List γ} :
    Matchable R xs (ys.map g) ↔ Matchable (fun x y => R x (g y)) xs ys := by
  rw [← List.map_id xs, matchable_map_iff, List.map_id]
  exact Iff.rfl

/-- Lists without repetition that hold the same elements, up to `==`, are matched. -/
theorem matchable_beq {κ : Type} [BEq κ] [EquivBEq κ] {xs ys : List κ}
    (hxs : xs.Pairwise fun x y => (x == y) = false) (hys : ys.Pairwise fun x y => (x == y) = false)
    (hleft : ∀ x ∈ xs, ∃ y ∈ ys, (x == y) = true) (hright : ∀ y ∈ ys, ∃ x ∈ xs, (x == y) = true) :
    Matchable (fun x y => (x == y) = true) xs ys := by
  induction xs generalizing ys with
  | nil =>
      rw [Matchable.nil_left_iff]
      rw [List.eq_nil_iff_forall_not_mem]
      intro y hy
      obtain ⟨x, hx, _⟩ := hright y hy
      cases hx
  | cons x xs ih =>
      obtain ⟨y, hy, hxy⟩ := hleft x List.mem_cons_self
      obtain ⟨rest, hrest⟩ := exists_perm_cons_of_mem hy
      have hne := List.pairwise_cons.mp hxs
      have hrestNe : (y :: rest).Pairwise fun x y => (x == y) = false := by
        apply hrest.pairwise hys
        intro a b hab
        exact BEq.symm_false hab
      have hne' := List.pairwise_cons.mp hrestNe
      refine Matchable.perm (Matchable.cons hxy (ih hne.2 hne'.2 ?_ ?_)) (.refl _) hrest.symm
      · intro a ha
        obtain ⟨b, hb, hab⟩ := hleft a (List.mem_cons_of_mem x ha)
        refine ⟨b, ?_, hab⟩
        rcases List.mem_cons.mp (hrest.mem_iff.mp hb) with rfl | hb
        · have hxa := BEq.trans hxy (BEq.symm hab)
          rw [hne.1 a ha] at hxa
          cases hxa
        · exact hb
      · intro b hb
        obtain ⟨a, ha, hab⟩ := hright b (hrest.mem_iff.mpr (List.mem_cons_of_mem y hb))
        refine ⟨a, ?_, hab⟩
        rcases List.mem_cons.mp ha with rfl | ha
        · have hyb := BEq.trans (BEq.symm hxy) hab
          rw [hne'.1 b hb] at hyb
          cases hyb
        · exact ha

end TableDiff
