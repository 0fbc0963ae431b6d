import TableDiff.Proofs.AnyOrder.RowOrder
import TableDiff.Proofs.KeyGroups.Verdict

/-!
# Groups of reordered rows

When the rows of two tables are reordered, the keys appear in another order and the rows of each
group are reordered.  There are the same keys, though, and under each of them the same rows.  The
results of the groups add up to the same verdict and to a diff of the same size.
-/

namespace TableDiff

/-! ## The different keys of a list -/

section

variable {κ : Type} [BEq κ] [EquivBEq κ]

theorem pairwise_eraseDups (keys : List κ) :
    keys.eraseDups.Pairwise fun x y => (x == y) = false := by
  induction hn : keys.length using Nat.strong_induction_on generalizing keys with
  | _ n ih =>
    cases keys with
    | nil => exact .nil
    | cons key keys =>
        rw [List.eraseDups_cons, List.pairwise_cons]
        have hlength : (keys.filter fun k => !k == key).length < n := by
          have hle := List.length_filter_le (fun k => !k == key) keys
          rw [List.length_cons] at hn
          omega
        refine ⟨?_, ih _ hlength _ rfl⟩
        intro other hother
        have hne := (List.mem_filter.mp (mem_of_mem_eraseDups hother)).2
        exact BEq.symm_false (by simpa using hne)

theorem matchable_eraseDups {keys keys' : List κ} (h : keys.Perm keys') :
    Matchable (fun x y => (x == y) = true) keys.eraseDups keys'.eraseDups := by
  apply matchable_beq (pairwise_eraseDups keys) (pairwise_eraseDups keys')
  · intro x hx
    exact exists_mem_eraseDups (h.mem_iff.mp (mem_of_mem_eraseDups hx))
  · intro y hy
    obtain ⟨x, hx, hyx⟩ := exists_mem_eraseDups (h.mem_iff.mpr (mem_of_mem_eraseDups hy))
    exact ⟨x, hx, BEq.symm hyx⟩

end

/-- The table with other rows under its columns. -/
def Table.withRows (t : Table) (rows : List Row) : Table := { t with rows := rows }

namespace RowMatch

/-! ## The same groups -/

/-- Keyed rows without their places. -/
def keyedRows (keyed : List (Key × Entry)) : List (Key × Row) :=
  keyed.map fun p => (p.1, p.2.row)

section

variable {config : Config} {m : CellMatcher} {t : Table} {rows : List Row}
  {keyed keyed' expected expected' actual actual' : List (Key × Entry)}

theorem forall₂_keyedRows (h : keyedEntries config m t = .ok keyed) :
    List.Forall₂
      (fun row p => rowKey m.conversion (keyOrder config t) row = .ok p.1 ∧ p.2 = row)
      t.rows (keyedRows keyed) := by
  rw [← Entry.map_row_ofTable, keyedRows, List.forall₂_map_left_iff, List.forall₂_map_right_iff]
  refine (mapM_eq_ok_iff.mp h).imp fun e p hp => ?_
  obtain ⟨key, hkey, hpure⟩ := bind_eq_ok_iff.mp hp
  cases hpure
  exact ⟨MatchError.lift_eq_ok_iff.mp hkey, rfl⟩

/-- Reordered rows keep their keys. -/
theorem keyedRows_perm (h : keyedEntries config m t = .ok keyed)
    (h' : keyedEntries config m (t.withRows rows) = .ok keyed') (hrows : rows.Perm t.rows) :
    (keyedRows keyed).Perm (keyedRows keyed') := by
  obtain ⟨reordered, hreordered, hperm⟩ := List.perm_comp_forall₂ hrows (forall₂_keyedRows h)
  have hkeyed : List.Forall₂
      (fun row p => rowKey m.conversion (keyOrder config t) row = .ok p.1 ∧ p.2 = row)
      rows (keyedRows keyed') := forall₂_keyedRows h'
  have hunique : Relator.RightUnique fun (row : Row) (p : Key × Row) =>
      rowKey m.conversion (keyOrder config t) row = .ok p.1 ∧ p.2 = row := by
    rintro row ⟨key, _⟩ ⟨key', _⟩ ⟨hkey, rfl⟩ ⟨hkey', rfl⟩
    cases hkey.symm.trans hkey'
    rfl
  rw [← List.right_unique_forall₂' hunique hreordered hkeyed]
  exact hperm.symm

theorem map_fst_perm_of_keyedRows (h : (keyedRows keyed).Perm (keyedRows keyed')) :
    (keyed.map (·.1)).Perm (keyed'.map (·.1)) := by
  have hkeys := h.map Prod.fst
  rwa [keyedRows, keyedRows, List.map_map, List.map_map] at hkeys

theorem sameRows_of_keyedRows (h : (keyedRows keyed).Perm (keyedRows keyed')) {key key' : Key}
    (hbeq : (key == key') = true) :
    SameRows (rowsWith key keyed) (rowsWith key' keyed') := by
  have hgroup := (h.filter (·.1 == key)).map Prod.snd
  rw [keyedRows, keyedRows, List.filter_map, List.filter_map, List.map_map, List.map_map] at hgroup
  rw [← rowsWith_congr hbeq, SameRows, rowsWith, rowsWith, List.map_map, List.map_map]
  exact hgroup

/-- Groups that hold the same rows. -/
structure KeyGroup.SameRows (g g' : KeyGroup) : Prop where
  expected : TableDiff.SameRows g.expected g'.expected
  actual : TableDiff.SameRows g.actual g'.actual

theorem matchable_keyGroups (hexpected : (keyedRows expected).Perm (keyedRows expected'))
    (hactual : (keyedRows actual).Perm (keyedRows actual')) :
    Matchable KeyGroup.SameRows (keyGroups expected actual) (keyGroups expected' actual') := by
  have hkeys : ((expected ++ actual).map (·.1)).Perm ((expected' ++ actual').map (·.1)) := by
    rw [List.map_append, List.map_append]
    exact (map_fst_perm_of_keyedRows hexpected).append (map_fst_perm_of_keyedRows hactual)
  rw [keyGroups_eq, keyGroups_eq, matchable_map_iff]
  apply (matchable_eraseDups hkeys).imp_of_mem
  intro key _ key' _ hbeq
  exact ⟨sameRows_of_keyedRows hexpected hbeq, sameRows_of_keyedRows hactual hbeq⟩

end

/-! ## The results of the groups -/

/-- The rows of a group are among the given ones, each under an index of its own. -/
structure KeyGroup.Within (X Y : List Row) (g : KeyGroup) : Prop where
  expected : Entry.Among X g.expected
  actual : Entry.Among Y g.actual
  nodup_expected : (g.expected.map (·.index)).Nodup
  nodup_actual : (g.actual.map (·.index)).Nodup

theorem within_of_mem_keyGroups {config : Config} {m : CellMatcher} {s t : Table}
    {keyed keyed' : List (Key × Entry)} (hkeyed : keyedEntries config m s = .ok keyed)
    (hkeyed' : keyedEntries config m t = .ok keyed') {g : KeyGroup}
    (hg : g ∈ keyGroups keyed keyed') : g.Within s.rows t.rows := by
  have hof := isOf_of_mem_keyGroups hkeyed hkeyed' hg
  refine ⟨?_, ?_, hof.nodup_expected, hof.nodup_actual⟩
  · intro e he
    exact Entry.row_mem (hof.isOf_expected e he)
  · intro a ha
    exact Entry.row_mem (hof.isOf_actual a ha)

section

variable {δ : Type} {κ : Row → δ} {X Y X' Y' : List Row} {m : CellMatcher} {limit limit' : Nat}
  {g g' : KeyGroup} {r r' : RowMatch}

theorem ofGroup_tally_eq [DecidableEq δ] (hκ : m.Sorts κ X Y) (h : ofGroup m limit g = .ok r)
    (h' : ofGroup m limit' g' = .ok r') (hsame : g.SameRows g') (hwithin : g.Within X Y)
    (hwithin' : g'.Within X' Y') : r.tally = r'.tally := by
  have hexpected := hsame.expected.length_eq
  have hactual := hsame.actual.length_eq
  by_cases hlength : g.expected.length = g.actual.length
  · by_cases hsingle : g.expected.length = 1
    · obtain ⟨e, he⟩ := List.length_eq_one_iff.mp hsingle
      obtain ⟨a, ha⟩ := List.length_eq_one_iff.mp (hlength.symm.trans hsingle)
      obtain ⟨e', he', hrow⟩ := hsame.expected.exists_eq_singleton he
      obtain ⟨a', ha', hrow'⟩ := hsame.actual.exists_eq_singleton ha
      rw [ofGroup_singleton m limit he ha] at h
      rw [ofGroup_singleton m limit' he' ha', hrow, hrow'] at h'
      obtain ⟨b, hb, hpure⟩ := bind_eq_ok_iff.mp h
      obtain ⟨b', hb', hpure'⟩ := bind_eq_ok_iff.mp h'
      cases hb.symm.trans hb'
      cases hpure
      cases hpure'
      rfl
    · rw [ofGroup_of_length_eq m limit hsingle hlength] at h
      rw [ofGroup_of_length_eq m limit' (by omega) (by omega)] at h'
      exact anyOrder_tally_eq hκ h h' hsame.expected hsame.actual hwithin.expected
        hwithin.actual hwithin.nodup_expected hwithin.nodup_actual hwithin'.nodup_expected
        hwithin'.nodup_actual
  · rw [ofGroup_of_length_ne m limit hlength] at h
    rw [ofGroup_of_length_ne m limit' (by omega)] at h'
    cases h
    cases h'
    simp only [tally, DiffLine.countP_isNone_zip, List.length_map, hexpected, hactual]

end

/-- The verdict and the size of the diff do not depend on the order of the rows. -/
theorem byKey_tally_eq {δ : Type} [DecidableEq δ] {κ : Row → δ} {config : Config} {m : CellMatcher}
    {s t : Table} {rows rows' : List Row} {r r' : RowMatch} (hκ : m.Sorts κ s.rows t.rows)
    (h : byKey config m s t = .ok r)
    (h' : byKey config m (s.withRows rows) (t.withRows rows') = .ok r')
    (hrows : rows.Perm s.rows) (hrows' : rows'.Perm t.rows) : r.tally = r'.tally := by
  obtain ⟨expected, hexpected, h⟩ := bind_eq_ok_iff.mp h
  obtain ⟨actual, hactual, h⟩ := bind_eq_ok_iff.mp h
  obtain ⟨results, hresults, hpure⟩ := bind_eq_ok_iff.mp h
  cases hpure
  obtain ⟨expected', hexpected', h'⟩ := bind_eq_ok_iff.mp h'
  obtain ⟨actual', hactual', h'⟩ := bind_eq_ok_iff.mp h'
  obtain ⟨results', hresults', hpure⟩ := bind_eq_ok_iff.mp h'
  cases hpure
  have hgroups : Matchable
      (fun g g' => g.SameRows g' ∧ g.Within s.rows t.rows ∧ g'.Within rows rows')
      (keyGroups expected actual) (keyGroups expected' actual') := by
    apply (matchable_keyGroups (keyedRows_perm hexpected hexpected' hrows)
      (keyedRows_perm hactual hactual' hrows')).imp_of_mem
    intro g hg g' hg' hsame
    exact ⟨hsame, within_of_mem_keyGroups hexpected hactual hg,
      within_of_mem_keyGroups hexpected' hactual' hg'⟩
  have hruns := Matchable.of_forall₂ (mapM_eq_ok_iff.mp hresults)
  have hruns' := Matchable.of_forall₂ (mapM_eq_ok_iff.mp hresults')
  -- each result belongs to a group, this to one with the same rows, and that has its own result
  have htallies : Matchable (fun r r' : RowMatch => r.tally = r'.tally) results results' := by
    apply ((hruns.swap.comp hgroups).comp hruns').imp_of_mem
    rintro r _ r' _ ⟨g', ⟨g, hrun, hsame, hwithin, hwithin'⟩, hrun'⟩
    exact ofGroup_tally_eq hκ hrun hrun' hsame hwithin hwithin'
  rw [tally_foldl_append, tally_foldl_append]
  exact htallies.map_perm.foldl_eq _

end RowMatch

end TableDiff
