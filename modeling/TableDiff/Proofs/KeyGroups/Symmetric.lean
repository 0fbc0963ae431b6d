import TableDiff.Proofs.AnyOrder.Symmetric
import TableDiff.Proofs.KeyGroups.RowOrder

/-!
# Groups with their sides exchanged

Exchanging two tables exchanges the sides of every group.  The groups come in another order then,
since the keys of the expected rows are listed first, but there is a group for the same keys.
-/

namespace TableDiff

/-- Matched elements that contribute the same parts contribute the same whole. -/
theorem Matchable.flatMap_perm {α β γ : Type} {f : α → List γ} {g : β → List γ} {xs : List α}
    {ys : List β} (h : Matchable (fun x y => (f x).Perm (g y)) xs ys) :
    (xs.flatMap f).Perm (ys.flatMap g) := by
  obtain ⟨pairs, hpairs⟩ := h
  have hsame := List.Perm.flatMap_left pairs hpairs.related
  have hleft := hpairs.left.flatMap_right f
  have hright := hpairs.right.flatMap_right g
  rw [List.flatMap_map] at hleft hright
  exact (hleft.symm.trans hsame).trans hright

namespace RowMatch

namespace Mirrors

variable {results results' : List RowMatch}

theorem foldl_append (h : Matchable Mirrors results results') :
    (results.foldl append ⟨true, []⟩).Mirrors (results'.foldl append ⟨true, []⟩) where
  matched := by
    have hverdicts : (results.map (·.matched)).Perm (results'.map (·.matched)) := by
      apply (h.imp _).map_perm
      intro _ _ hr
      exact hr.matched.symm
    rw [matched_foldl_append, matched_foldl_append]
    simpa [List.all_map, Function.comp_def] using (hverdicts.all_eq (f := id)).symm
  lines := by
    have hlines : (results.flatMap fun r => r.lines.map DiffLine.swap).Perm
        (results'.flatMap (·.lines)) := by
      apply (h.imp _).flatMap_perm
      intro _ _ hr
      exact hr.lines.symm
    rw [lines_foldl_append, lines_foldl_append, List.nil_append, List.nil_append, List.map_flatMap]
    exact hlines.symm

end Mirrors

/-- The group with its sides exchanged. -/
def KeyGroup.swap (g : KeyGroup) : KeyGroup := ⟨g.actual, g.expected⟩

theorem matchable_keyGroups_swap (expected actual : List (Key × Entry)) :
    Matchable (fun g g' => g' = g.swap) (keyGroups expected actual)
      (keyGroups actual expected) := by
  have hkeys : ((expected ++ actual).map (·.1)).Perm ((actual ++ expected).map (·.1)) :=
    List.perm_append_comm.map _
  rw [keyGroups_eq, keyGroups_eq, matchable_map_iff]
  apply (matchable_eraseDups hkeys).imp_of_mem
  intro key _ key' _ hbeq
  rw [← rowsWith_congr hbeq, ← rowsWith_congr hbeq]
  rfl

section

variable {config : Config} {m m' : CellMatcher} {limit limit' : Nat} {s t : Table} {g : KeyGroup}
  {r r' : RowMatch}

theorem ofGroup_mirrors (hreverses : m.Reverses m' (Entry.ofTable s) (Entry.ofTable t))
    (hs : s.PredicateFree) (ht : t.PredicateFree) (hg : g.IsOf s t)
    (h : ofGroup m limit g = .ok r) (h' : ofGroup m' limit' g.swap = .ok r') : r.Mirrors r' := by
  have hgroup := hreverses.mono hg.expected.subset hg.actual.subset
  by_cases hlength : g.expected.length = g.actual.length
  · by_cases hsingle : g.expected.length = 1
    · obtain ⟨e, he⟩ := List.length_eq_one_iff.mp hsingle
      obtain ⟨a, ha⟩ := List.length_eq_one_iff.mp (hlength.symm.trans hsingle)
      rw [ofGroup_singleton m limit he ha] at h
      rw [ofGroup_singleton m' limit' (g := g.swap) ha he,
        hgroup e (by simp [he]) a (by simp [ha])] at h'
      obtain ⟨b, hb, hpure⟩ := bind_eq_ok_iff.mp h
      obtain ⟨b', hb', hpure'⟩ := bind_eq_ok_iff.mp h'
      cases hb.symm.trans hb'
      cases hpure
      cases hpure'
      exact ⟨rfl, .refl _⟩
    · rw [ofGroup_of_length_eq m limit hsingle hlength] at h
      rw [ofGroup_of_length_eq m' limit' (g := g.swap) (by simp only [KeyGroup.swap]; omega)
        hlength.symm] at h'
      exact anyOrder_mirrors hgroup
        (hasPredicate_of_subset_ofTable hs hg.expected.subset)
        (hasPredicate_of_subset_ofTable ht hg.actual.subset)
        hg.nodup_expected hg.nodup_actual h h'
  · rw [ofGroup_of_length_ne m limit hlength] at h
    rw [ofGroup_of_length_ne m' limit' (g := g.swap) (Ne.symm hlength)] at h'
    cases h
    cases h'
    exact ⟨rfl, .of_eq (DiffLine.map_swap_zip _ _).symm⟩

theorem keyedEntries_congr (hconversion : m'.conversion = m.conversion) (t : Table) :
    keyedEntries config m' t = keyedEntries config m t := by
  rw [keyedEntries, keyedEntries, hconversion]

/-- Grouping by key lines up two tables alike from either side. -/
theorem byKey_mirrors (hconversion : m'.conversion = m.conversion)
    (hreverses : m.Reverses m' (Entry.ofTable s) (Entry.ofTable t))
    (hs : s.PredicateFree) (ht : t.PredicateFree)
    (h : byKey config m s t = .ok r) (h' : byKey config m' t s = .ok r') : r.Mirrors r' := by
  obtain ⟨keyed, hkeyed, h⟩ := bind_eq_ok_iff.mp h
  obtain ⟨keyed', hkeyed', h⟩ := bind_eq_ok_iff.mp h
  obtain ⟨results, hresults, hpure⟩ := bind_eq_ok_iff.mp h
  cases hpure
  rw [byKey, keyedEntries_congr hconversion, keyedEntries_congr hconversion, hkeyed', ok_bind,
    hkeyed, ok_bind] at h'
  obtain ⟨results', hresults', hpure⟩ := bind_eq_ok_iff.mp h'
  cases hpure
  have hruns := Matchable.of_forall₂ (mapM_eq_ok_iff.mp hresults)
  have hruns' := Matchable.of_forall₂ (mapM_eq_ok_iff.mp hresults')
  have hgroups : Matchable (fun g g' => g.IsOf s t ∧ g' = g.swap) (keyGroups keyed keyed')
      (keyGroups keyed' keyed) := by
    apply (matchable_keyGroups_swap keyed keyed').imp_of_mem
    intro g hg g' _ hswap
    exact ⟨isOf_of_mem_keyGroups hkeyed hkeyed' hg, hswap⟩
  apply Mirrors.foldl_append
  apply ((hruns.swap.comp hgroups).comp hruns').imp_of_mem
  rintro r _ r' _ ⟨g', ⟨g, hrun, hg, rfl⟩, hrun'⟩
  exact ofGroup_mirrors hreverses hs ht hg hrun hrun'

end

end RowMatch

end TableDiff
