import TableDiff.Proofs.AnyOrder.Verdict
import TableDiff.Proofs.KeyGroups.Slots

/-!
# Rows grouped by key

Every row of either table is in exactly one group.  The results of the groups are sound each for
its own rows, and so their concatenation is sound for all rows.
-/

namespace TableDiff

/-- Grouping by the different keys of a list keeps all its entries. -/
theorem flatMap_filter_eraseDups_perm
    {κ β : Type} [BEq κ] [EquivBEq κ] (keys : List κ) (l : List (κ × β))
    (h : ∀ p ∈ l, ∃ key ∈ keys, (p.1 == key) = true) :
    (keys.eraseDups.flatMap fun key => l.filter (·.1 == key)).Perm l := by
  induction hn : keys.length using Nat.strong_induction_on generalizing keys l with
  | _ n ih =>
    cases keys with
    | nil =>
        have hempty : l = [] := by
          apply List.eq_nil_iff_forall_not_mem.mpr
          intro p hp
          rcases h p hp with ⟨key, hkey, _⟩
          cases hkey
        rw [hempty]
        exact .refl _
    | cons key keys =>
        rw [List.eraseDups_cons, List.flatMap_cons]
        have hothers : ∀ other ∈ (keys.filter fun k => !k == key).eraseDups,
            (l.filter (·.1 == other)) =
              (l.filter fun p => !p.1 == key).filter (·.1 == other) := by
          intro other hother
          have hne := (List.mem_filter.mp (mem_of_mem_eraseDups hother)).2
          rw [List.filter_filter]
          apply List.filter_congr
          intro p _
          cases hp : p.1 == other with
          | false => rfl
          | true =>
              rw [BEq.congr_left hp, hne]
              rfl
        have hrest : ∀ p ∈ l.filter fun p => !p.1 == key,
            ∃ k ∈ keys.filter fun k => !k == key, (p.1 == k) = true := by
          intro p hp
          have hp := List.mem_filter.mp hp
          rcases h p hp.1 with ⟨k, hk, hpk⟩
          rcases List.mem_cons.mp hk with rfl | hk
          · simp [hpk] at hp
          · refine ⟨k, List.mem_filter.mpr ⟨hk, ?_⟩, hpk⟩
            rw [← BEq.congr_left hpk]
            exact hp.2
        have hlength : (keys.filter fun k => !k == key).length < n := by
          have hle := List.length_filter_le (fun k => !k == key) keys
          rw [List.length_cons] at hn
          omega
        have hperm := ih _ hlength _ _ hrest rfl
        rw [List.flatMap_congr hothers]
        exact (hperm.append_left _).trans (List.filter_append_perm _ l)

namespace RowMatch

theorem mem_keyedEntries_iff {config : Config} {m : CellMatcher} {t : Table}
    {keyed : List (Key × Entry)} (h : keyedEntries config m t = .ok keyed) {key : Key}
    {e : Entry} :
    (key, e) ∈ keyed ↔ e ∈ Entry.ofTable t ∧
      rowKey m.conversion (keyOrder config t) e.row = .ok key := by
  rw [mem_of_mapM_eq_ok_iff h]
  simp only [bind_eq_ok_iff, MatchError.lift_eq_ok_iff, pure, Except.pure, Except.ok.injEq,
    Prod.mk.injEq]
  constructor
  · rintro ⟨_, he, _, hkey, rfl, rfl⟩
    exact ⟨he, hkey⟩
  · rintro ⟨he, hkey⟩
    exact ⟨e, he, key, hkey, rfl, rfl⟩

theorem keyedEntries_eq_ok {config : Config} {m : CellMatcher} {t : Table}
    {keyed : List (Key × Entry)} (h : keyedEntries config m t = .ok keyed) :
    keyed.map (·.2) = Entry.ofTable t := by
  have hall := mapM_eq_ok_iff.mp h
  have hentries : List.Forall₂ (fun e p => p.2 = e) (Entry.ofTable t) keyed := by
    apply hall.imp
    intro e p hp
    rcases bind_eq_ok_iff.mp hp with ⟨key, _, hpure⟩
    cases hpure
    rfl
  have hmap : List.Forall₂ (· = ·) (Entry.ofTable t) (keyed.map (·.2)) := by
    rw [List.forall₂_map_right_iff]
    exact hentries.imp fun _ _ heq => heq.symm
  exact (List.forall₂_eq_eq_eq ▸ hmap).symm

section

variable (expected actual : List (Key × Entry))

/-- The groups share out any of the keyed rows. -/
theorem flatMap_filter_keys_perm {keyed : List (Key × Entry)} (h : keyed ⊆ expected ++ actual) :
    (((expected ++ actual).map (·.1)).eraseDups.flatMap fun key =>
      keyed.filter (·.1 == key)).Perm keyed := by
  apply flatMap_filter_eraseDups_perm
  intro p hp
  exact ⟨p.1, List.mem_map_of_mem (h hp), BEq.rfl⟩

theorem flatMap_rowsWith_perm {keyed : List (Key × Entry)} (h : keyed ⊆ expected ++ actual) :
    (((expected ++ actual).map (·.1)).eraseDups.flatMap fun key => rowsWith key keyed).Perm
      (keyed.map (·.2)) := by
  have hgroups := (flatMap_filter_keys_perm expected actual h).map (·.2)
  rw [List.map_flatMap] at hgroups
  exact hgroups

theorem keyGroups_expected_perm :
    ((keyGroups expected actual).flatMap (·.expected)).Perm (expected.map (·.2)) := by
  rw [keyGroups_eq, List.flatMap_map]
  exact flatMap_rowsWith_perm expected actual (List.subset_append_left expected actual)

theorem keyGroups_actual_perm :
    ((keyGroups expected actual).flatMap (·.actual)).Perm (actual.map (·.2)) := by
  rw [keyGroups_eq, List.flatMap_map]
  exact flatMap_rowsWith_perm expected actual (List.subset_append_right expected actual)

variable {expected actual} in
theorem sublist_of_mem_keyGroups {g : KeyGroup} (h : g ∈ keyGroups expected actual) :
    g.expected.Sublist (expected.map (·.2)) ∧ g.actual.Sublist (actual.map (·.2)) := by
  rw [keyGroups_eq] at h
  obtain ⟨key, _, rfl⟩ := List.mem_map.mp h
  have hrows : ∀ keyed, (rowsWith key keyed).Sublist (keyed.map (·.2)) := by
    intro keyed
    exact List.filter_sublist.map _
  exact ⟨hrows expected, hrows actual⟩

variable {expected actual} in
/-- Rows of equal keys share a group. -/
theorem exists_mem_keyGroups_of_beq {key key' : Key} {e a : Entry}
    (he : (key, e) ∈ expected) (ha : (key', a) ∈ actual) (hbeq : (key == key') = true) :
    ∃ g ∈ keyGroups expected actual, e ∈ g.expected ∧ a ∈ g.actual := by
  have hmember : key ∈ (expected ++ actual).map (·.1) :=
    List.mem_map.mpr ⟨_, List.mem_append_left _ he, rfl⟩
  obtain ⟨head, hhead, hkey⟩ := exists_mem_eraseDups hmember
  have hkey' : (key' == head) = true := BEq.trans (BEq.symm hbeq) hkey
  have hmem : e ∈ rowsWith head expected := mem_rowsWith_iff.mpr ⟨key, he, hkey⟩
  have hmem' : a ∈ rowsWith head actual := mem_rowsWith_iff.mpr ⟨key', ha, hkey'⟩
  rw [keyGroups_eq]
  exact ⟨_, List.mem_map_of_mem hhead, hmem, hmem'⟩

end

/-- A group of rows of the two tables, in their order there. -/
structure KeyGroup.IsOf (s t : Table) (g : KeyGroup) : Prop where
  expected : g.expected.Sublist (Entry.ofTable s)
  actual : g.actual.Sublist (Entry.ofTable t)

namespace KeyGroup.IsOf

variable {s t : Table} {g : KeyGroup}

theorem isOf_expected (h : g.IsOf s t) : ∀ e ∈ g.expected, e.IsOf s := by
  intro e he
  exact Entry.isOf_of_mem_ofTable (h.expected.subset he)

theorem isOf_actual (h : g.IsOf s t) : ∀ a ∈ g.actual, a.IsOf t := by
  intro a ha
  exact Entry.isOf_of_mem_ofTable (h.actual.subset ha)

theorem nodup_expected (h : g.IsOf s t) : (g.expected.map (·.index)).Nodup :=
  (h.expected.map (·.index)).nodup (Entry.nodup_map_index_ofTable s)

theorem nodup_actual (h : g.IsOf s t) : (g.actual.map (·.index)).Nodup :=
  (h.actual.map (·.index)).nodup (Entry.nodup_map_index_ofTable t)

end KeyGroup.IsOf

theorem isOf_of_mem_keyGroups {config : Config} {m : CellMatcher} {s t : Table}
    {keyed keyed' : List (Key × Entry)} (hkeyed : keyedEntries config m s = .ok keyed)
    (hkeyed' : keyedEntries config m t = .ok keyed') {g : KeyGroup}
    (hg : g ∈ keyGroups keyed keyed') : g.IsOf s t := by
  have hsub := sublist_of_mem_keyGroups hg
  rw [keyedEntries_eq_ok hkeyed, keyedEntries_eq_ok hkeyed'] at hsub
  exact ⟨hsub.1, hsub.2⟩

/-! ## The results of the groups -/

section

variable (m : CellMatcher) (limit : Nat) {g : KeyGroup}

theorem ofGroup_singleton {e a : Entry} (he : g.expected = [e]) (ha : g.actual = [a]) :
    ofGroup m limit g = (m.rowsMatch e.row a.row).bind fun b =>
      .ok ⟨b, [DiffLine.both e.index a.index]⟩ := by
  rw [ofGroup, he, ha]
  rfl

theorem ofGroup_of_length_eq (hmany : g.expected.length ≠ 1)
    (hlength : g.expected.length = g.actual.length) :
    ofGroup m limit g = anyOrder m limit g.expected g.actual := by
  unfold ofGroup
  split
  · next e a he ha =>
    rw [he] at hmany
    exact absurd rfl hmany
  · rw [if_pos hlength]

theorem ofGroup_of_length_ne (hlength : g.expected.length ≠ g.actual.length) :
    ofGroup m limit g =
      .ok ⟨false, DiffLine.zip (g.expected.map (·.index)) (g.actual.map (·.index))⟩ := by
  unfold ofGroup
  split
  · next e a he ha =>
    rw [he, ha] at hlength
    exact absurd rfl hlength
  · rw [if_neg hlength]

end

section

variable {R : Nat → Nat → Prop} {m : CellMatcher} {limit : Nat} {s t : Table} {r : RowMatch}

theorem ofGroup_sound {g : KeyGroup} (h : ofGroup m limit g = .ok r) (hg : g.IsOf s t) :
    r.Sound (m.MatchesAt s t) (g.expected.map (·.index)) (g.actual.map (·.index)) := by
  unfold ofGroup at h
  split at h
  · next e a he ha =>
    rcases bind_eq_ok_iff.mp h with ⟨matched, hmatched, hpure⟩
    cases hpure
    have hexpected := hg.isOf_expected
    have hactual := hg.isOf_actual
    rw [he, List.forall_mem_singleton] at hexpected
    rw [ha, List.forall_mem_singleton] at hactual
    rw [he, ha]
    refine ⟨DiffLine.Covers.both e.index a.index, ?_⟩
    intro htrue line hline
    have htrue : matched = true := htrue
    rw [htrue] at hmatched
    exact ⟨e.index, a.index, List.mem_singleton.mp hline,
      matchesAt_of_joins hexpected hactual hmatched⟩
  · split at h
    · exact anyOrder_sound h hg.isOf_expected hg.isOf_actual hg.nodup_expected hg.nodup_actual
    · cases h
      exact .of_unmatched (DiffLine.covers_zip _ _)

theorem foldl_append_sound {groups : List KeyGroup} {results : List RowMatch}
    {expected actual : List Nat}
    (h : List.Forall₂ (fun g r => Sound R (g.expected.map (·.index)) (g.actual.map (·.index)) r)
      groups results)
    (hr : r.Sound R expected actual) :
    (results.foldl append r).Sound R
      (expected ++ (groups.flatMap (·.expected)).map (·.index))
      (actual ++ (groups.flatMap (·.actual)).map (·.index)) := by
  induction h generalizing r expected actual with
  | nil => simpa using hr
  | cons hg _ ih =>
      have hall := ih (hr.append hg)
      simpa [List.append_assoc] using hall

theorem byKey_sound {config : Config} (h : byKey config m s t = .ok r) :
    r.Sound (m.MatchesAt s t) (List.range s.rows.length) (List.range t.rows.length) := by
  rcases bind_eq_ok_iff.mp h with ⟨expected, hexpected, h⟩
  rcases bind_eq_ok_iff.mp h with ⟨actual, hactual, h⟩
  rcases bind_eq_ok_iff.mp h with ⟨results, hresults, hpure⟩
  cases hpure
  have hentries := keyedEntries_eq_ok hexpected
  have hentries' := keyedEntries_eq_ok hactual
  have hgroups : List.Forall₂
      (fun g r => Sound (m.MatchesAt s t) (g.expected.map (·.index)) (g.actual.map (·.index)) r)
      (keyGroups expected actual) results := by
    have hmem : ∀ g ∈ keyGroups expected actual, g ∈ keyGroups expected actual := by
      intro g hg
      exact hg
    have hruns := (List.forall₂_and_left _ _).mpr ⟨hmem, mapM_eq_ok_iff.mp hresults⟩
    apply hruns.imp
    intro g r hrun
    exact ofGroup_sound hrun.2 (isOf_of_mem_keyGroups hexpected hactual hrun.1)
  have hall := foldl_append_sound hgroups .nil
  apply hall.perm
  · have hperm := (keyGroups_expected_perm expected actual).map (·.index)
    rw [hentries, Entry.map_index_ofTable] at hperm
    exact hperm
  · have hperm := (keyGroups_actual_perm expected actual).map (·.index)
    rw [hentries', Entry.map_index_ofTable] at hperm
    exact hperm

end

end RowMatch

end TableDiff
