import TableDiff.Proofs.KeyColumns
import TableDiff.Proofs.PerfectMatching.Kinds

/-!
# The verdict on rows grouped by key

Rows that match have one key, so a complete pairing of all rows is a complete pairing of each group.
The search within a group finds one if there is one.  So all groups match when all rows can be
paired, and nothing but the limit of a search keeps a group from being decided.
-/

namespace TableDiff.RowMatch

theorem matched_foldl_append (results : List RowMatch) (r : RowMatch) :
    (results.foldl append r).matched = (r.matched && results.all (·.matched)) := by
  induction results generalizing r with
  | nil => simp
  | cons head results ih =>
      rw [List.foldl_cons, ih, List.all_cons, append, Bool.and_assoc]

theorem lines_foldl_append (results : List RowMatch) (r : RowMatch) :
    (results.foldl append r).lines = r.lines ++ results.flatMap (·.lines) := by
  induction results generalizing r with
  | nil => simp
  | cons head results ih =>
      rw [List.foldl_cons, ih, List.flatMap_cons, append, List.append_assoc]

section

variable {m : CellMatcher} {limit : Nat} {g : KeyGroup} {r : RowMatch}

theorem ofGroup_of_matchable (h : ofGroup m limit g = .ok r)
    (hmatchable : Matchable m.Joins g.expected g.actual)
    (hexchange : ∀ e ∈ g.expected, e.row.hasPredicate = false → ∀ x ∈ g.expected,
      ∀ a ∈ g.actual, ∀ a' ∈ g.actual, m.Joins e a → m.Joins e a' → m.Joins x a → m.Joins x a') :
    r.matched = true := by
  unfold ofGroup at h
  split at h
  · next e a he ha =>
    rw [he, ha, Matchable.singleton_iff] at hmatchable
    obtain ⟨matched, hmatched, hpure⟩ := bind_eq_ok_iff.mp h
    cases hpure
    exact Except.ok.inj (hmatched.symm.trans hmatchable)
  · obtain ⟨pairs, hpairs⟩ := hmatchable
    rw [if_pos hpairs.length_eq] at h
    exact anyOrder_of_matchable h ⟨pairs, hpairs⟩ hexchange

theorem ofGroup_eq_error {fault : MatchError} (h : ofGroup m limit g = .error fault)
    (hnodup : (g.expected.map (·.index)).Nodup) (hnodup' : (g.actual.map (·.index)).Nodup) :
    (∃ e ∈ g.expected, ∃ a ∈ g.actual, m.rowsMatch e.row a.row = .error fault) ∨
      (fault = .tooManyPermutations limit ∧ ∃ e ∈ g.expected, e.row.hasPredicate = true) := by
  unfold ofGroup at h
  split at h
  · next e a he ha =>
    rcases bind_eq_error_iff.mp h with hrows | ⟨b, _, hpure⟩
    · exact .inl ⟨e, by simp [he], a, by simp [ha], hrows⟩
    · cases hpure
  · split at h
    · exact anyOrder_eq_error h hnodup hnodup'
    · cases h

end

section

variable {config : Config} {m : CellMatcher} {s t : Table} {keyed keyed' : List (Key × Entry)}
  {r : RowMatch}

/-- Rows of one key that match. -/
def KeyedJoins (m : CellMatcher) (p q : Key × Entry) : Prop :=
  (p.1 == q.1) = true ∧ m.Joins p.2 q.2

/-- A pairing of all rows within their keys is a pairing of the rows of each group. -/
theorem matchable_keyedJoins_iff :
    Matchable (KeyedJoins m) keyed keyed' ↔
      ∀ g ∈ keyGroups keyed keyed', Matchable m.Joins g.expected g.actual := by
  constructor
  · rintro ⟨pairs, hpairs⟩ g hg
    rw [keyGroups_eq] at hg
    obtain ⟨key, _, rfl⟩ := List.mem_map.mp hg
    have htogether : ∀ z ∈ pairs, (z.1.1 == key) = (z.2.1 == key) := by
      intro z hz
      exact BEq.congr_left (hpairs.related z hz).1
    have hgroup : Matchable (KeyedJoins m) (keyed.filter (·.1 == key))
        (keyed'.filter (·.1 == key)) :=
      ⟨_, hpairs.filter (·.1 == key) (·.1 == key) htogether⟩
    apply matchable_map_iff.mpr
    apply hgroup.imp
    intro _ _ hjoins
    exact hjoins.2
  · intro h
    rw [keyGroups_eq] at h
    have hkeys : ∀ key ∈ ((keyed ++ keyed').map (·.1)).eraseDups,
        Matchable (KeyedJoins m) (keyed.filter (·.1 == key)) (keyed'.filter (·.1 == key)) := by
      intro key hkey
      refine (matchable_map_iff.mp (h _ (List.mem_map_of_mem hkey))).imp_of_mem ?_
      intro p hp q hq hjoins
      have hpkey := (List.mem_filter.mp hp).2
      have hqkey := (List.mem_filter.mp hq).2
      exact ⟨BEq.trans hpkey (BEq.symm hqkey), hjoins⟩
    exact (Matchable.flatMap hkeys).perm
      (flatMap_filter_keys_perm keyed keyed' (List.subset_append_left keyed keyed'))
      (flatMap_filter_keys_perm keyed keyed' (List.subset_append_right keyed keyed'))

theorem ofGroup_matched_iff {g : KeyGroup} (h : ofGroup m config.permutationLimit g = .ok r)
    (hs : s.Built) (hrespect : s.PredicatesRespect m.conversion) (hg : g.IsOf s t) :
    r.matched = true ↔ Matchable m.Joins g.expected g.actual := by
  constructor
  · intro hmatched
    obtain ⟨pairs, _, hpairs⟩ := (ofGroup_sound h hg).perfectMatching hmatched
    have hindices : Matchable (m.MatchesAt s t) (g.expected.map (·.index))
        (g.actual.map (·.index)) := ⟨pairs, hpairs⟩
    apply (matchable_map_iff.mp hindices).imp_of_mem
    intro e he a ha hat
    exact joins_of_matchesAt (hg.isOf_expected e he) (hg.isOf_actual a ha) hat
  · intro hmatchable
    apply ofGroup_of_matchable h hmatchable
    intro e he hliteral x hx
    exact joins_exchange hs hrespect e (hg.expected.subset he) hliteral x (hg.expected.subset hx)

/-- The verdict says whether all rows can be paired within their keys. -/
theorem byKey_matched_iff_keyed (h : byKey config m s t = .ok r) (hs : s.Built)
    (hrespect : s.PredicatesRespect m.conversion) (hkeyed : keyedEntries config m s = .ok keyed)
    (hkeyed' : keyedEntries config m t = .ok keyed') :
    r.matched = true ↔ Matchable (KeyedJoins m) keyed keyed' := by
  rw [byKey, hkeyed, ok_bind, hkeyed', ok_bind] at h
  obtain ⟨results, hresults, hpure⟩ := bind_eq_ok_iff.mp h
  cases hpure
  rw [matched_foldl_append, Bool.true_and, List.all_eq_true, matchable_keyedJoins_iff]
  have hiff : ∀ g ∈ keyGroups keyed keyed', ∀ result,
      ofGroup m config.permutationLimit g = .ok result →
        (result.matched = true ↔ Matchable m.Joins g.expected g.actual) := by
    intro g hg result hrun
    exact ofGroup_matched_iff hrun hs hrespect (isOf_of_mem_keyGroups hkeyed hkeyed' hg)
  constructor
  · intro hmatched g hg
    obtain ⟨result, hrun⟩ := exists_eq_ok_of_mapM_eq_ok hresults hg
    exact (hiff g hg result hrun).mp
      (hmatched result ((mem_of_mapM_eq_ok_iff hresults).mpr ⟨g, hg, hrun⟩))
  · intro hmatchable result hresult
    obtain ⟨g, hg, hrun⟩ := (mem_of_mapM_eq_ok_iff hresults).mp hresult
    exact (hiff g hg result hrun).mpr (hmatchable g hg)

/-- Where keys are aligned, rows that match have one key anyway, and the groups do not restrict the
pairing. -/
theorem byKey_matched_iff (h : byKey config m s t = .ok r)
    (hs : s.Built) (haligned : KeysAligned m (keyOrder config s) (keyOrder config t))
    (hrespect : s.PredicatesRespect m.conversion) :
    r.matched = true ↔ Matchable m.Joins (Entry.ofTable s) (Entry.ofTable t) := by
  obtain ⟨keyed, hkeyed, hrest⟩ := bind_eq_ok_iff.mp h
  obtain ⟨keyed', hkeyed', _⟩ := bind_eq_ok_iff.mp hrest
  rw [byKey_matched_iff_keyed h hs hrespect hkeyed hkeyed', ← keyedEntries_eq_ok hkeyed,
    ← keyedEntries_eq_ok hkeyed', matchable_map_iff]
  constructor
  · intro hmatchable
    apply hmatchable.imp
    intro _ _ hjoins
    exact hjoins.2
  · intro hmatchable
    apply hmatchable.imp_of_mem
    intro p hp q hq hjoins
    exact ⟨keyed_beq_of_joins hs haligned hkeyed hkeyed' hp hq hjoins, hjoins⟩

theorem exists_of_keyedEntries_eq_error {fault : MatchError}
    (h : keyedEntries config m t = .error fault) : ∃ e, fault = .table e := by
  obtain ⟨e, _, hentry⟩ := exists_of_mapM_eq_error h
  rcases bind_eq_error_iff.mp hentry with hkey | ⟨key, _, hpure⟩
  · exact MatchError.exists_of_lift_eq_error hkey
  · cases hpure

theorem exists_keyedEntries_eq_ok (config : Config) (m : CellMatcher) {t : Table}
    (h : ∀ row ∈ t.rows, t.ConcreteKey row) :
    ∃ keyed, keyedEntries config m t = .ok keyed := by
  apply exists_mapM_eq_ok
  intro e he
  have hrow := Entry.row_mem_of_mem_ofTable he
  obtain ⟨key, hkey⟩ := exists_rowKey_eq_ok config m.conversion (h e.row hrow)
  exact ⟨(key, e), by rw [hkey]; rfl⟩

/-- The groups fail where a key cannot be read, two rows cannot be compared, or a search for
partners of rows with predicates meets its limit. -/
theorem byKey_eq_error {fault : MatchError} (h : byKey config m s t = .error fault) :
    keyedEntries config m s = .error fault ∨ keyedEntries config m t = .error fault ∨
      (∃ e ∈ Entry.ofTable s, ∃ a ∈ Entry.ofTable t, m.rowsMatch e.row a.row = .error fault) ∨
      (fault = .tooManyPermutations config.permutationLimit ∧
        ∃ e ∈ Entry.ofTable s, e.row.hasPredicate = true) := by
  rcases bind_eq_error_iff.mp h with hkeyed | ⟨keyed, hkeyed, h⟩
  · exact .inl hkeyed
  rcases bind_eq_error_iff.mp h with hkeyed' | ⟨keyed', hkeyed', h⟩
  · exact .inr (.inl hkeyed')
  rcases bind_eq_error_iff.mp h with hresults | ⟨results, _, hpure⟩
  · obtain ⟨g, hg, hfailed⟩ := exists_of_mapM_eq_error hresults
    have hof := isOf_of_mem_keyGroups hkeyed hkeyed' hg
    rcases ofGroup_eq_error hfailed hof.nodup_expected hof.nodup_actual with
      ⟨e, he, a, ha, hfault⟩ | ⟨hlimit, e, he, hpredicate⟩
    · exact .inr (.inr (.inl ⟨e, hof.expected.subset he, a, hof.actual.subset ha, hfault⟩))
    · exact .inr (.inr (.inr ⟨hlimit, e, hof.expected.subset he, hpredicate⟩))
  · cases hpure

variable (config m) in
/-- Where the keys and the answers on all rows exist, only the limit can stop the matching. -/
theorem exists_byKey_eq_ok
    (hconcrete : ∀ row ∈ s.rows, s.ConcreteKey row) (ht : t.PredicateFree) :
    (∃ r, byKey config m s t = .ok r) ∨
      byKey config m s t = .error (.tooManyPermutations config.permutationLimit) := by
  obtain ⟨keyed, hkeyed⟩ := exists_keyedEntries_eq_ok config m hconcrete
  obtain ⟨keyed', hkeyed'⟩ := exists_keyedEntries_eq_ok config m ht.concreteKey
  cases hr : byKey config m s t with
  | ok r => exact .inl ⟨r, rfl⟩
  | error fault =>
      rcases byKey_eq_error hr with hfault | hfault | ⟨e, _, a, ha, hfault⟩ | ⟨rfl, _⟩
      · cases hkeyed.symm.trans hfault
      · cases hkeyed'.symm.trans hfault
      · obtain ⟨b, hb⟩ := exists_rowsMatch_of_mem_ofTable m ht e.row ha
        cases hb.symm.trans hfault
      · exact .inr rfl

end

end TableDiff.RowMatch
