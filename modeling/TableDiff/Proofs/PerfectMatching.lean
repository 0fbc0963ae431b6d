import Mathlib.Data.List.Perm.Basic
import Mathlib.Tactic

/-!
# Perfect matchings between two lists

A perfect matching pairs every element of one list with an element of another, uses every place of
both lists once, and only joins related elements.  Which of several interchangeable elements is used
does not matter for its existence, so a partner that is taken too early can be exchanged.
-/

namespace TableDiff

variable {α β : Type} {R : α → β → Prop}

/-- Pairs of related elements that use every place of both lists once. -/
structure PerfectMatching (R : α → β → Prop) (xs : List α) (ys : List β)
    (pairs : List (α × β)) : Prop where
  left : (pairs.map Prod.fst).Perm xs
  right : (pairs.map Prod.snd).Perm ys
  related : ∀ p ∈ pairs, R p.1 p.2

/-- Pairs of related elements that use every place of both lists at most once. -/
structure PartialMatching (R : α → β → Prop) (xs : List α) (ys : List β)
    (pairs : List (α × β)) : Prop where
  left : (pairs.map Prod.fst).Subperm xs
  right : (pairs.map Prod.snd).Subperm ys
  related : ∀ p ∈ pairs, R p.1 p.2

/-- The elements of two lists can be paired completely. -/
def Matchable (R : α → β → Prop) (xs : List α) (ys : List β) : Prop :=
  ∃ pairs, PerfectMatching R xs ys pairs

theorem exists_perm_cons_of_mem {a : α} {l : List α} (h : a ∈ l) :
    ∃ rest, l.Perm (a :: rest) := by
  rcases List.append_of_mem h with ⟨s, t, rfl⟩
  exact ⟨s ++ t, List.perm_middle⟩

namespace PerfectMatching

variable {xs xs' : List α} {ys ys' : List β} {pairs pairs' : List (α × β)}

theorem nil : PerfectMatching R [] [] [] where
  left := .refl _
  right := .refl _
  related := by
    intro _ hp
    cases hp

theorem cons
    {x : α} {y : β} (hxy : R x y) (h : PerfectMatching R xs ys pairs) :
    PerfectMatching R (x :: xs) (y :: ys) ((x, y) :: pairs) where
  left := h.left.cons x
  right := h.right.cons y
  related := by
    intro p hp
    rcases List.mem_cons.mp hp with rfl | hp
    · exact hxy
    · exact h.related p hp

theorem append
    (h : PerfectMatching R xs ys pairs) (h' : PerfectMatching R xs' ys' pairs') :
    PerfectMatching R (xs ++ xs') (ys ++ ys') (pairs ++ pairs') where
  left := by
    rw [List.map_append]
    exact h.left.append h'.left
  right := by
    rw [List.map_append]
    exact h.right.append h'.right
  related := by
    intro p hp
    rcases List.mem_append.mp hp with hp | hp
    · exact h.related p hp
    · exact h'.related p hp

theorem perm
    (h : PerfectMatching R xs ys pairs) (hxs : xs.Perm xs') (hys : ys.Perm ys') :
    PerfectMatching R xs' ys' pairs where
  left := h.left.trans hxs
  right := h.right.trans hys
  related := h.related

theorem swap (h : PerfectMatching R xs ys pairs) :
    PerfectMatching (flip R) ys xs (pairs.map Prod.swap) where
  left := by
    rw [List.map_map]
    exact h.right
  right := by
    rw [List.map_map]
    exact h.left
  related := by
    intro q hq
    rcases List.mem_map.mp hq with ⟨p, hp, rfl⟩
    exact h.related p hp

theorem length_eq (h : PerfectMatching R xs ys pairs) : xs.length = ys.length := by
  have hleft := h.left.length_eq
  have hright := h.right.length_eq
  rw [List.length_map] at hleft hright
  exact hleft.symm.trans hright

theorem of_perm_cons
    {x : α} {y : β} (h : PerfectMatching R xs ys pairs)
    (hpairs : pairs.Perm ((x, y) :: pairs'))
    (hxs : xs.Perm (x :: xs')) (hys : ys.Perm (y :: ys')) :
    PerfectMatching R xs' ys' pairs' where
  left := by
    have hleft := (hpairs.map Prod.fst).symm.trans (h.left.trans hxs)
    exact hleft.cons_inv
  right := by
    have hright := (hpairs.map Prod.snd).symm.trans (h.right.trans hys)
    exact hright.cons_inv
  related := by
    intro p hp
    apply h.related
    rw [hpairs.mem_iff]
    exact List.mem_cons_of_mem _ hp

/-- The pairs of a part that related elements belong to together. -/
theorem filter
    (h : PerfectMatching R xs ys pairs) (p : α → Bool) (q : β → Bool)
    (htogether : ∀ z ∈ pairs, p z.1 = q z.2) :
    PerfectMatching R (xs.filter p) (ys.filter q) (pairs.filter fun z => p z.1) where
  left := by
    have hleft := h.left.filter p
    rwa [List.filter_map] at hleft
  right := by
    have hright := h.right.filter q
    rw [List.filter_map] at hright
    rwa [List.filter_congr htogether]
  related z hz := h.related z (List.mem_of_mem_filter hz)

theorem partialMatching (h : PerfectMatching R xs ys pairs) : PartialMatching R xs ys pairs where
  left := h.left.subperm
  right := h.right.subperm
  related := h.related

end PerfectMatching

theorem nodup_map_of_subperm {γ : Type} {f : α → γ} {l l' : List α}
    (h : l.Subperm l') (hnodup : (l'.map f).Nodup) : (l.map f).Nodup := by
  rcases h with ⟨sub, hperm, hsub⟩
  exact (hperm.map f).nodup_iff.mp ((hsub.map f).nodup hnodup)

namespace PartialMatching

variable {xs xs' : List α} {ys ys' : List β} {pairs pairs' : List (α × β)}

theorem nil : PartialMatching R xs ys [] where
  left := List.nil_subperm
  right := List.nil_subperm
  related := by
    intro _ hp
    cases hp

theorem append
    (h : PartialMatching R xs ys pairs) (h' : PartialMatching R xs' ys' pairs') :
    PartialMatching R (xs ++ xs') (ys ++ ys') (pairs ++ pairs') where
  left := by
    rw [List.map_append]
    exact h.left.append h'.left
  right := by
    rw [List.map_append]
    exact h.right.append h'.right
  related := by
    intro p hp
    rcases List.mem_append.mp hp with hp | hp
    · exact h.related p hp
    · exact h'.related p hp

theorem perm
    (h : PartialMatching R xs ys pairs) (hxs : xs.Perm xs') (hys : ys.Perm ys') :
    PartialMatching R xs' ys' pairs where
  left := h.left.trans hxs.subperm
  right := h.right.trans hys.subperm
  related := h.related

theorem mem_left {p : α × β} (h : PartialMatching R xs ys pairs) (hp : p ∈ pairs) :
    p.1 ∈ xs :=
  h.left.subset (List.mem_map_of_mem hp)

theorem mem_right {p : α × β} (h : PartialMatching R xs ys pairs) (hp : p ∈ pairs) :
    p.2 ∈ ys :=
  h.right.subset (List.mem_map_of_mem hp)

end PartialMatching

namespace Matchable

variable {xs xs' : List α} {ys ys' : List β}

theorem perm (h : Matchable R xs ys) (hxs : xs.Perm xs') (hys : ys.Perm ys') :
    Matchable R xs' ys' := by
  rcases h with ⟨pairs, hpairs⟩
  exact ⟨pairs, hpairs.perm hxs hys⟩

theorem nil_left_iff : Matchable R [] ys ↔ ys = [] := by
  constructor
  · rintro ⟨pairs, h⟩
    exact List.length_eq_zero_iff.mp h.length_eq.symm
  · rintro rfl
    exact ⟨[], .nil⟩

theorem singleton_iff {x : α} {y : β} : Matchable R [x] [y] ↔ R x y := by
  constructor
  · rintro ⟨pairs, h⟩
    obtain ⟨p, rfl⟩ : ∃ p, pairs = [p] := by
      have hlength := h.left.length_eq
      rwa [List.length_map, List.length_singleton, List.length_eq_one_iff] at hlength
    have hleft : p.1 = x := by simpa using h.left
    have hright : p.2 = y := by simpa using h.right
    rw [← hleft, ← hright]
    exact h.related p List.mem_cons_self
  · intro hxy
    exact ⟨_, PerfectMatching.nil.cons hxy⟩

theorem cons {x : α} {y : β} (hxy : R x y) (h : Matchable R xs ys) :
    Matchable R (x :: xs) (y :: ys) := by
  rcases h with ⟨pairs, hpairs⟩
  exact ⟨(x, y) :: pairs, hpairs.cons hxy⟩

/-- The first element has a partner, and the others can be matched without the two. -/
theorem exists_partner {x : α} (h : Matchable R (x :: xs) ys) :
    ∃ y rest, R x y ∧ ys.Perm (y :: rest) ∧ Matchable R xs rest := by
  rcases h with ⟨pairs, hpairs⟩
  have hx : x ∈ pairs.map Prod.fst := hpairs.left.mem_iff.mpr List.mem_cons_self
  rcases List.mem_map.mp hx with ⟨⟨_, y⟩, hp, rfl⟩
  have hy : y ∈ ys := hpairs.right.mem_iff.mp (List.mem_map_of_mem hp)
  rcases exists_perm_cons_of_mem hy with ⟨rest, hrest⟩
  rcases exists_perm_cons_of_mem hp with ⟨pairs', hpairs'⟩
  exact ⟨y, rest, hpairs.related _ hp, hrest,
    pairs', hpairs.of_perm_cons hpairs' (.refl _) hrest⟩

/-- An element can be replaced by one with at least the same partners. -/
theorem replace
    {y y' : β} (h : Matchable R xs (y :: ys)) (hreplace : ∀ x ∈ xs, R x y → R x y') :
    Matchable R xs (y' :: ys) := by
  rcases h with ⟨pairs, hpairs⟩
  have hy : y ∈ pairs.map Prod.snd := hpairs.right.mem_iff.mpr List.mem_cons_self
  rcases List.mem_map.mp hy with ⟨⟨x, _⟩, hp, rfl⟩
  have hx : x ∈ xs := hpairs.left.mem_iff.mp (List.mem_map_of_mem hp)
  rcases exists_perm_cons_of_mem hx with ⟨xs', hxs'⟩
  rcases exists_perm_cons_of_mem hp with ⟨pairs', hpairs'⟩
  have hothers := hpairs.of_perm_cons hpairs' hxs' (.refl _)
  exact ⟨_, (hothers.cons (hreplace x hx (hpairs.related _ hp))).perm hxs'.symm (.refl _)⟩

/-- A partner that is taken early does no harm when all partners of its taker have the same
partners: the others can still be matched. -/
theorem of_cons_of_exchange
    {x : α} {y : β} (h : Matchable R (x :: xs) (y :: ys))
    (hexchange : ∀ x' ∈ xs, ∀ y' ∈ ys, R x y' → R x' y → R x' y') :
    Matchable R xs ys := by
  rcases h.exists_partner with ⟨y', rest, hy', hperm, hrest⟩
  rcases List.mem_cons.mp (hperm.symm.mem_iff.mp List.mem_cons_self) with rfl | hmem
  · exact hrest.perm (.refl _) hperm.cons_inv.symm
  · rcases exists_perm_cons_of_mem hmem with ⟨common, hcommon⟩
    have hrest' : rest.Perm (y :: common) :=
      (hperm.symm.trans ((hcommon.cons y).trans (List.Perm.swap _ _ _))).cons_inv
    have hmatched : Matchable R xs (y :: common) := hrest.perm (.refl _) hrest'
    have hreplaced : Matchable R xs (y' :: common) := by
      apply hmatched.replace
      intro x' hx'
      exact hexchange x' hx' y' hmem hy'
    exact hreplaced.perm (.refl _) hcommon.symm

end Matchable

/-! ## Matching places instead of elements -/

def RelatedAt (R : α → β → Prop) (xs : List α) (ys : List β) (i : Nat) (j : Nat) : Prop :=
  ∃ x y, xs[i]? = some x ∧ ys[j]? = some y ∧ R x y

theorem relatedAt_map {γ δ : Type} {f : γ → α} {g : δ → β} {xs : List γ} {ys : List δ} :
    RelatedAt R (xs.map f) (ys.map g) = RelatedAt (fun x y => R (f x) (g y)) xs ys := by
  funext i j
  simp [RelatedAt]

/-- The pairs of elements at pairs of places. -/
def pairsAt (xs : List α) (ys : List β) (places : List (Nat × Nat)) : List (α × β) :=
  places.filterMap fun p => do return (← xs[p.1]?, ← ys[p.2]?)

theorem filterMap_getElem?_perm {xs : List α} {places : List Nat}
    (h : places.Perm (List.range xs.length)) :
    (places.filterMap (xs[·]?)).Perm xs := by
  have hrange : (List.range xs.length).map (xs[·]?) = xs.map some := by
    apply List.ext_getElem
    · simp
    · intro i _ _
      simp
  have hall : (List.range xs.length).filterMap (xs[·]?) = xs := by
    have h := congrArg (List.filterMap id) hrange
    rwa [List.filterMap_map, List.filterMap_map, Function.id_comp, Function.id_comp,
      List.filterMap_some] at h
  exact (h.filterMap _).trans (by rw [hall])

theorem PerfectMatching.pairsAt
    {xs : List α} {ys : List β} {places : List (Nat × Nat)}
    (h : PerfectMatching (RelatedAt R xs ys)
      (List.range xs.length) (List.range ys.length) places) :
    PerfectMatching R xs ys (pairsAt xs ys places) where
  left := by
    have hlookup : (TableDiff.pairsAt xs ys places).map Prod.fst =
        (places.map Prod.fst).filterMap (xs[·]?) := by
      rw [TableDiff.pairsAt, List.map_filterMap, List.filterMap_map]
      apply List.filterMap_congr
      intro p hp
      rcases h.related p hp with ⟨x, y, hx, hy, _⟩
      simp [hx, hy]
    rw [hlookup]
    exact filterMap_getElem?_perm h.left
  right := by
    have hlookup : (TableDiff.pairsAt xs ys places).map Prod.snd =
        (places.map Prod.snd).filterMap (ys[·]?) := by
      rw [TableDiff.pairsAt, List.map_filterMap, List.filterMap_map]
      apply List.filterMap_congr
      intro p hp
      rcases h.related p hp with ⟨x, y, hx, hy, _⟩
      simp [hx, hy]
    rw [hlookup]
    exact filterMap_getElem?_perm h.right
  related := by
    intro q hq
    rcases List.mem_filterMap.mp hq with ⟨p, hp, hpq⟩
    rcases h.related p hp with ⟨x, y, hx, hy, hxy⟩
    simp only [hx, hy, Option.bind_eq_bind, Option.bind_some, pure, Option.some.injEq] at hpq
    rw [← hpq]
    exact hxy

theorem forall₂_range (xs : List α) :
    List.Forall₂ (fun x i => xs[i]? = some x) xs (List.range xs.length) := by
  rw [List.forall₂_iff_get]
  constructor
  · simp
  · intro i hi _
    simp [hi]

theorem Matchable.places {xs : List α} {ys : List β} (h : Matchable R xs ys) :
    Matchable (RelatedAt R xs ys) (List.range xs.length) (List.range ys.length) := by
  rcases h with ⟨pairs, hpairs⟩
  rcases List.perm_comp_forall₂ hpairs.left (forall₂_range xs) with ⟨is, his, hisrange⟩
  rcases List.perm_comp_forall₂ hpairs.right (forall₂_range ys) with ⟨js, hjs, hjsrange⟩
  rw [List.forall₂_map_left_iff] at his hjs
  have hislength := his.length_eq
  have hjslength := hjs.length_eq
  refine ⟨is.zip js, ?_, ?_, ?_⟩
  · rw [List.map_fst_zip (by omega)]
    exact hisrange
  · rw [List.map_snd_zip (by omega)]
    exact hjsrange
  · intro p hp
    rcases List.mem_iff_getElem?.mp hp with ⟨k, hk⟩
    rcases List.getElem?_zip_eq_some.mp hk with ⟨hi, hj⟩
    rcases List.getElem?_eq_some_iff.mp hi with ⟨hki, hgeti⟩
    rcases List.getElem?_eq_some_iff.mp hj with ⟨hkj, hgetj⟩
    have hkpairs : k < pairs.length := by omega
    refine ⟨pairs[k].1, pairs[k].2, ?_, ?_, hpairs.related _ (List.getElem_mem hkpairs)⟩
    · rw [← hgeti]
      exact his.get hkpairs hki
    · rw [← hgetj]
      exact hjs.get hkpairs hkj

theorem matchable_places_iff {xs : List α} {ys : List β} :
    Matchable (RelatedAt R xs ys) (List.range xs.length) (List.range ys.length) ↔
      Matchable R xs ys := by
  constructor
  · rintro ⟨places, h⟩
    exact ⟨_, h.pairsAt⟩
  · intro h
    exact h.places

theorem matchable_map_iff {γ δ : Type} {f : γ → α} {g : δ → β} {xs : List γ} {ys : List δ} :
    Matchable R (xs.map f) (ys.map g) ↔ Matchable (fun x y => R (f x) (g y)) xs ys := by
  rw [← matchable_places_iff, relatedAt_map, List.length_map, List.length_map, matchable_places_iff]

end TableDiff
