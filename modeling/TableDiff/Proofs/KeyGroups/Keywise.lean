import TableDiff.Proofs.AnyOrder.AllOrNothing
import TableDiff.Proofs.KeyGroups.Verdict
import TableDiff.Proofs.Tally

/-!
# Key by key

Matching by key is matching in any order, once for each key.  The keys follow each other as they
first appear, the rows of a key keep to themselves, and all rows match when the rows of every key
are paired completely.  The shortcut for a single row on each side gives the verdict that the search
would have given.
-/

namespace TableDiff

/-! ## First appearances -/

section

variable {κ : Type} [BEq κ] [EquivBEq κ]

/-- The different keys among `all`, in the order in which they first appear there. -/
structure FirstAppearances (all keys : List κ) : Prop where
  subset : keys ⊆ all
  complete : ∀ key ∈ all, ∃ first ∈ keys, (key == first) = true
  distinct : keys.Pairwise fun x y => (x == y) = false
  ascending : keys.Pairwise fun x y => all.findIdx (· == x) < all.findIdx (· == y)

/-- Leaving out elements that satisfy neither of two properties keeps the order of their first
appearances. -/
theorem findIdx_lt_of_filter {α : Type} {p q keep : α → Bool} {l : List α}
    (hp : ∀ a, keep a = false → p a = false) (hq : ∀ a, keep a = false → q a = false)
    (h : (l.filter keep).findIdx p < (l.filter keep).findIdx q) : l.findIdx p < l.findIdx q := by
  induction l with
  | nil => simp at h
  | cons a l ih =>
      cases hkeep : keep a with
      | false =>
          rw [List.filter_cons_of_neg (by simp [hkeep])] at h
          simpa [List.findIdx_cons, hp a hkeep, hq a hkeep] using ih h
      | true =>
          rw [List.filter_cons_of_pos hkeep] at h
          rw [List.findIdx_cons, List.findIdx_cons] at h ⊢
          cases hpa : p a <;> cases hqa : q a <;>
            simp only [hpa, hqa, cond_true, cond_false] at h ⊢ <;> omega

theorem ascending_eraseDups (keys : List κ) :
    keys.eraseDups.Pairwise fun x y => keys.findIdx (· == x) < keys.findIdx (· == y) := by
  induction hn : keys.length using Nat.strong_induction_on generalizing keys with
  | _ n ih =>
    cases keys with
    | nil => exact .nil
    | cons key keys =>
        rw [List.eraseDups_cons, List.pairwise_cons]
        have hlength : (keys.filter fun k => !k == key).length < n := by
          have hle := List.length_filter_le (fun k => !k == key) keys
          rw [List.length_cons] at hn
          omega
        have hother : ∀ other ∈ (keys.filter fun k => !k == key).eraseDups,
            (key == other) = false := by
          intro other hmem
          have hne := (List.mem_filter.mp (mem_of_mem_eraseDups hmem)).2
          exact BEq.symm_false (by simpa using hne)
        refine ⟨?_, ?_⟩
        · intro other hmem
          simp [List.findIdx_cons, hother other hmem]
        · refine (ih _ hlength _ rfl).imp_of_mem ?_
          intro x y hx hy hlt
          have hskip : ∀ z, (key == z) = false → ∀ k, (!k == key) = false → (k == z) = false := by
            intro z hz k hk
            have hk : (k == key) = true := by simpa using hk
            rw [BEq.congr_left hk, hz]
          have hrest := findIdx_lt_of_filter (hskip x (hother x hx)) (hskip y (hother y hy)) hlt
          simpa [List.findIdx_cons, hother x hx, hother y hy] using hrest

theorem firstAppearances_eraseDups (keys : List κ) : FirstAppearances keys keys.eraseDups where
  subset := by
    intro key hkey
    exact mem_of_mem_eraseDups hkey
  complete := by
    intro key hkey
    exact exists_mem_eraseDups hkey
  distinct := by
    refine (ascending_eraseDups keys).imp fun {x y} hlt => ?_
    rw [Bool.eq_false_iff]
    intro hxy
    have hsame : keys.findIdx (· == x) = keys.findIdx (· == y) := by
      congr 1
      funext key
      exact BEq.congr_right hxy
    omega
  ascending := ascending_eraseDups keys

end

/-! ## Pairings of all rows -/

/-- The pairs take up every expected and every actual index once. -/
structure Pairing.PairsAll (l : Pairing) (expected actual : List Nat) : Prop where
  expected : (l.toList.map (·.expected)).Perm expected
  actual : (l.toList.map (·.actual)).Perm actual

section

variable {m : CellMatcher} {limit : Nat} {expected actual : List Entry} {l : Pairing}

theorem pairsAll_iff_size_eq (h : matchAnyOrder m limit expected actual = .ok l) :
    l.PairsAll (expected.map (·.index)) (actual.map (·.index)) ↔
      l.size = expected.length ∧ l.size = actual.length := by
  obtain ⟨hdistinct, _⟩ := matchAnyOrder_sound h
  constructor
  · intro hall
    have hlength := hall.expected.length_eq
    have hlength' := hall.actual.length_eq
    simp only [List.length_map, Pairing.length_toList] at hlength hlength'
    exact ⟨hlength, hlength'⟩
  · intro hsize
    have hsub : l.toList.map (·.expected) ⊆ expected.map (·.index) := by
      intro i hi
      obtain ⟨p, hp, rfl⟩ := List.mem_map.mp hi
      exact expected_mem_of_matchAnyOrder h p hp
    have hsub' : l.toList.map (·.actual) ⊆ actual.map (·.index) := by
      intro j hj
      obtain ⟨p, hp, rfl⟩ := List.mem_map.mp hj
      exact actual_mem_of_matchAnyOrder h p hp
    constructor
    · apply (List.subperm_of_subset hdistinct.expected hsub).perm_of_length_le
      simp [hsize.1]
    · apply (List.subperm_of_subset hdistinct.actual hsub').perm_of_length_le
      simp [hsize.2]

/-- A row on each side is paired under every limit, if the two match. -/
theorem exists_matchAnyOrder_singleton {e a : Entry} {b : Bool}
    (h : m.rowsMatch e.row a.row = .ok b) (limit : Nat) :
    ∃ l, matchAnyOrder m limit [e] [a] = .ok l ∧
      l.toList = if b = true then [e.pair a] else [] := by
  have hanswers : ∀ x ∈ [e], ∀ y ∈ [a], ∃ b, m.rowsMatch x.row y.row = .ok b := by simp [h]
  have hliterals : ∀ x ∈ [e].filter fun e => !e.row.hasPredicate, ∀ y ∈ [a],
      ∃ b, m.rowsMatch x.row y.row = .ok b := by
    intro x hx y hy
    exact hanswers x (List.mem_of_mem_filter hx) y hy
  obtain ⟨⟨pairs, left⟩, hliteral⟩ := exists_pairLiteralRows_eq_ok hliterals
  obtain ⟨found, hfound⟩ : ∃ found,
      pairPredicateRows m limit ([e].filter fun e => e.row.hasPredicate) left = .ok found := by
    cases hpredicate : e.row.hasPredicate with
    | false => exact ⟨some [], by simp [hpredicate, pairPredicateRows_nil]⟩
    | true =>
        have hnone : pairLiteralRows m ([e].filter fun e => !e.row.hasPredicate) [a] =
            .ok ([], [a]) := by
          simp [hpredicate, pairLiteralRows, canonicalOrder, sortBy, pairGreedily, pure,
            Except.pure]
        cases hliteral.symm.trans hnone
        have hall : ([e].filter fun e => e.row.hasPredicate) = [e] := by simp [hpredicate]
        rw [hall]
        cases b with
        | true =>
            have honly : OnlyMatching m.Joins [e] [a] [(e, a)] := .cons .nil h (by simp)
            obtain ⟨found, hfound, _⟩ := pairPredicateRows_of_onlyMatching honly
              (List.nodup_singleton e) (List.nodup_singleton a) hanswers limit
            exact ⟨some found, hfound⟩
        | false =>
            have hhopeless : m.Hopeless [e] [a] :=
              .row e List.mem_cons_self (by simp [CellMatcher.Joins, h])
            obtain ⟨found, hfound, _⟩ := pairPredicateRows_of_hopeless limit hhopeless hanswers
            exact ⟨found, hfound⟩
  obtain ⟨l, hl, _⟩ := matchAnyOrder_of_phases hliteral hfound (List.nodup_singleton _)
    (List.nodup_singleton _)
  refine ⟨l, hl, ?_⟩
  cases b with
  | true =>
      obtain ⟨pairs, hpairs, hlist⟩ := matchAnyOrder_of_matchable hl
        (Matchable.singleton_iff.mpr h) (by simp)
      have hfst := List.perm_singleton.mp hpairs.left
      have hsnd := List.perm_singleton.mp hpairs.right
      obtain ⟨p, rfl, rfl⟩ := List.map_eq_singleton_iff.mp hfst
      rw [List.map_singleton, List.singleton_inj] at hsnd
      rw [hlist, ← hsnd, if_pos rfl, List.map_singleton]
  | false =>
      obtain ⟨_, pairs, hpairs, hlist⟩ := matchAnyOrder_sound hl
      have hnone : pairs = [] := by
        apply List.eq_nil_iff_forall_not_mem.mpr
        intro p hp
        have hjoins := hpairs.related p hp
        rw [List.mem_singleton.mp (hpairs.mem_left hp),
          List.mem_singleton.mp (hpairs.mem_right hp), CellMatcher.Joins, h] at hjoins
        cases hjoins
      rw [hlist, hnone]
      rfl

end

namespace RowMatch

/-! ## The result of one key -/

section

variable {m : CellMatcher} {limit : Nat} {g : KeyGroup} {r : RowMatch}

/-- The shortcut for a single row on each side agrees with the search. -/
theorem ofGroup_matched_iff_pairsAll (h : ofGroup m limit g = .ok r)
    (hexpected : (g.expected.map (·.index)).Nodup) (hactual : (g.actual.map (·.index)).Nodup) :
    r.matched = true ↔ g.expected.length = g.actual.length ∧
      ∃ l, matchAnyOrder m limit g.expected g.actual = .ok l ∧
        l.PairsAll (g.expected.map (·.index)) (g.actual.map (·.index)) := by
  by_cases hlength : g.expected.length = g.actual.length
  · by_cases hsingle : g.expected.length = 1
    · obtain ⟨e, he⟩ := List.length_eq_one_iff.mp hsingle
      obtain ⟨a, ha⟩ := List.length_eq_one_iff.mp (hlength.symm.trans hsingle)
      rw [ofGroup_singleton m limit he ha] at h
      obtain ⟨b, hb, hpure⟩ := bind_eq_ok_iff.mp h
      cases hpure
      obtain ⟨l, hl, hlist⟩ := exists_matchAnyOrder_singleton hb limit
      rw [he, ha]
      constructor
      · intro htrue
        have htrue : b = true := htrue
        rw [if_pos htrue] at hlist
        exact ⟨rfl, l, hl, by simp [hlist, Entry.pair], by simp [hlist, Entry.pair]⟩
      · rintro ⟨_, l', hl', hall⟩
        cases hl.symm.trans hl'
        by_contra hfalse
        have hfalse : ¬b = true := hfalse
        rw [if_neg hfalse] at hlist
        have hnone := hall.expected.length_eq
        simp [hlist] at hnone
    · rw [ofGroup_of_length_eq m limit hsingle hlength] at h
      obtain ⟨l, hl, htally⟩ := anyOrder_tally h hexpected hactual
      have hmatched : r.matched = decide (l.size = g.expected.length ∧ l.size = g.actual.length) :=
        congrArg Tally.matched htally
      rw [hmatched, decide_eq_true_eq, ← pairsAll_iff_size_eq hl]
      constructor
      · intro hall
        exact ⟨hlength, l, hl, hall⟩
      · rintro ⟨_, l', hl', hall⟩
        cases hl.symm.trans hl'
        exact hall
  · rw [ofGroup_of_length_ne m limit hlength] at h
    cases h
    simp [hlength]

end

/-! ## The keys of a table -/

section

variable (config : Config) (m : CellMatcher) (t : Table)

/-- The key of a row, if its key cells have values. -/
def keyOf? (row : Row) : Option Key := (rowKey m.conversion (keyOrder config t) row).toOption

def tableKeys : List Key := t.rows.filterMap (keyOf? config m t)

def rowsOfKey (key : Key) : List Entry :=
  (Entry.ofTable t).filter fun e => (keyOf? config m t e.row).any (· == key)

variable {config m t} {keyed : List (Key × Entry)}

theorem forall₂_keyOf? (h : keyedEntries config m t = .ok keyed) :
    List.Forall₂ (fun e p => keyOf? config m t e.row = some p.1 ∧ p.2 = e)
      (Entry.ofTable t) keyed := by
  refine (mapM_eq_ok_iff.mp h).imp fun e p hp => ?_
  obtain ⟨key, hkey, hpure⟩ := bind_eq_ok_iff.mp hp
  cases hpure
  rw [keyOf?, MatchError.lift_eq_ok_iff.mp hkey]
  exact ⟨rfl, rfl⟩

theorem tableKeys_eq (h : keyedEntries config m t = .ok keyed) :
    tableKeys config m t = keyed.map (·.1) := by
  have hall := forall₂_keyOf? h
  clear h
  rw [tableKeys, ← Entry.map_row_ofTable, List.filterMap_map]
  generalize Entry.ofTable t = entries at hall ⊢
  induction hall with
  | nil => rfl
  | cons hp _ ih => rw [List.filterMap_cons, Function.comp_apply, hp.1, ih, List.map_cons]

theorem rowsOfKey_eq (h : keyedEntries config m t = .ok keyed) (key : Key) :
    rowsOfKey config m t key = rowsWith key keyed := by
  have hall := forall₂_keyOf? h
  clear h
  rw [rowsOfKey, rowsWith]
  generalize Entry.ofTable t = entries at hall ⊢
  induction hall with
  | nil => rfl
  | @cons e p _ _ hp _ ih =>
      obtain ⟨hkey, rfl⟩ := hp
      cases hbeq : p.1 == key <;> simp [hkey, hbeq, ih]

theorem exists_of_mem_rowsOfKey {key : Key} {i : Nat}
    (h : i ∈ (rowsOfKey config m t key).map (·.index)) :
    ∃ own, t.rows[i]?.bind (keyOf? config m t) = some own ∧ (own == key) = true := by
  obtain ⟨e, he, rfl⟩ := List.mem_map.mp h
  obtain ⟨hmem, hkey⟩ := List.mem_filter.mp he
  rw [Entry.isOf_of_mem_ofTable hmem, Option.bind_some]
  cases hown : keyOf? config m t e.row with
  | none => simp [hown] at hkey
  | some own => exact ⟨own, rfl, by simpa [hown] using hkey⟩

end

/-! ## The result of one key -/

section

variable (config : Config) (m : CellMatcher) (s t : Table)

def ofKey (key : Key) : Except MatchError RowMatch :=
  ofGroup m config.permutationLimit ⟨rowsOfKey config m s key, rowsOfKey config m t key⟩

/-- The rows of a key are as many on either side, and the search pairs them all. -/
def KeyPaired (key : Key) : Prop :=
  (rowsOfKey config m s key).length = (rowsOfKey config m t key).length ∧
    ∃ l, matchAnyOrder m config.permutationLimit (rowsOfKey config m s key)
        (rowsOfKey config m t key) = .ok l ∧
      l.PairsAll ((rowsOfKey config m s key).map (·.index))
        ((rowsOfKey config m t key).map (·.index))

variable {config m s t} {key : Key} {r : RowMatch}

theorem isOf_rowsOfKey (key : Key) :
    KeyGroup.IsOf s t ⟨rowsOfKey config m s key, rowsOfKey config m t key⟩ :=
  ⟨List.filter_sublist, List.filter_sublist⟩

theorem covers_of_ofKey (h : ofKey config m s t key = .ok r) :
    DiffLine.Covers r.lines ((rowsOfKey config m s key).map (·.index))
      ((rowsOfKey config m t key).map (·.index)) :=
  (ofGroup_sound h (isOf_rowsOfKey key)).covers

theorem exists_keys_of_both_mem (h : ofKey config m s t key = .ok r) {i j : Nat}
    (hline : DiffLine.both i j ∈ r.lines) :
    ∃ own own', s.rows[i]?.bind (keyOf? config m s) = some own ∧
      t.rows[j]?.bind (keyOf? config m t) = some own' ∧ (own == own') = true := by
  have hcovers := covers_of_ofKey h
  obtain ⟨own, hown, hbeq⟩ := exists_of_mem_rowsOfKey
    (hcovers.expected_perm.subset (List.mem_filterMap.mpr ⟨_, hline, rfl⟩))
  obtain ⟨own', hown', hbeq'⟩ := exists_of_mem_rowsOfKey
    (hcovers.actual_perm.subset (List.mem_filterMap.mpr ⟨_, hline, rfl⟩))
  exact ⟨own, own', hown, hown', BEq.trans hbeq (BEq.symm hbeq')⟩

theorem ofKey_matched_iff (h : ofKey config m s t key = .ok r) :
    r.matched = true ↔ KeyPaired config m s t key := by
  have hof : KeyGroup.IsOf s t ⟨rowsOfKey config m s key, rowsOfKey config m t key⟩ :=
    isOf_rowsOfKey key
  exact ofGroup_matched_iff_pairsAll h hof.nodup_expected hof.nodup_actual

theorem exists_rowsMatch_of_ofKey (h : ofKey config m s t key = .ok r) {e a : Entry}
    (he : rowsOfKey config m s key = [e]) (ha : rowsOfKey config m t key = [a]) :
    ∃ b, m.rowsMatch e.row a.row = .ok b := by
  rw [ofKey, ofGroup_singleton m _ he ha] at h
  obtain ⟨b, hb, _⟩ := bind_eq_ok_iff.mp h
  exact ⟨b, hb⟩

end

/-! ## The result of all keys -/

section

variable {config : Config} {m : CellMatcher} {s t : Table} {r : RowMatch}

theorem byKey_eq_ok (h : byKey config m s t = .ok r) :
    ∃ keys results, FirstAppearances (tableKeys config m s ++ tableKeys config m t) keys ∧
      keys.mapM (ofKey config m s t) = .ok results ∧
      r.matched = results.all (·.matched) ∧ r.lines = results.flatMap (·.lines) := by
  obtain ⟨keyed, hkeyed, h⟩ := bind_eq_ok_iff.mp h
  obtain ⟨keyed', hkeyed', h⟩ := bind_eq_ok_iff.mp h
  obtain ⟨results, hresults, hpure⟩ := bind_eq_ok_iff.mp h
  cases hpure
  refine ⟨_, results, firstAppearances_eraseDups _, ?_, ?_, ?_⟩
  · have hof : ofKey config m s t = fun key => ofGroup m config.permutationLimit
        ⟨rowsWith key keyed, rowsWith key keyed'⟩ := by
      funext key
      rw [ofKey, rowsOfKey_eq hkeyed, rowsOfKey_eq hkeyed']
    rw [tableKeys_eq hkeyed, tableKeys_eq hkeyed', ← List.map_append, hof]
    rw [keyGroups_eq, List.mapM_map] at hresults
    exact hresults
  · rw [matched_foldl_append, Bool.true_and]
  · rw [lines_foldl_append, List.nil_append]

/-- What a result says about the rows, key by key. -/
structure Keywise (config : Config) (m : CellMatcher) (s t : Table) (keys : List Key)
    (r : RowMatch) : Prop where
  /-- Expected rows come before actual ones. -/
  first : FirstAppearances (tableKeys config m s ++ tableKeys config m t) keys
  /-- The lines are those of the first key, then those of the second, and so on. -/
  blocks : ∃ blocks : List (List DiffLine), r.lines = blocks.flatten ∧
    List.Forall₂ (fun key lines => DiffLine.Covers lines
      ((rowsOfKey config m s key).map (·.index)) ((rowsOfKey config m t key).map (·.index)))
      keys blocks
  joined : ∀ i j, DiffLine.both i j ∈ r.lines → ∃ key key',
    s.rows[i]?.bind (keyOf? config m s) = some key ∧
    t.rows[j]?.bind (keyOf? config m t) = some key' ∧ (key == key') = true
  matched_iff : r.matched = true ↔ ∀ key ∈ keys, KeyPaired config m s t key
  /-- A single row on each side: the search gives the verdict of the direct comparison. -/
  single : ∀ key ∈ keys, ∀ e a, rowsOfKey config m s key = [e] → rowsOfKey config m t key = [a] →
    ∃ b, m.rowsMatch e.row a.row = .ok b ∧ ∀ limit, ∃ l,
      matchAnyOrder m limit [e] [a] = .ok l ∧ l.toList = if b = true then [e.pair a] else []

/-- A result by key consists of the results of its keys, in the order in which these first
appear. -/
theorem byKey_keywise (h : byKey config m s t = .ok r) : ∃ keys, Keywise config m s t keys r := by
  obtain ⟨keys, results, hkeys, hruns, hmatched, hlines⟩ := byKey_eq_ok h
  refine ⟨keys, hkeys, ⟨results.map (·.lines), ?_, ?_⟩, ?_, ?_, ?_⟩
  · rw [hlines, List.flatMap_def]
  · rw [List.forall₂_map_right_iff]
    exact (mapM_eq_ok_iff.mp hruns).imp fun _ _ => covers_of_ofKey
  · intro i j hline
    rw [hlines, List.mem_flatMap] at hline
    obtain ⟨result, hresult, hline⟩ := hline
    obtain ⟨key, _, hrun⟩ := (mem_of_mapM_eq_ok_iff hruns).mp hresult
    exact exists_keys_of_both_mem hrun hline
  · rw [hmatched, List.all_eq_true]
    constructor
    · intro hall key hkey
      obtain ⟨result, hrun⟩ := exists_eq_ok_of_mapM_eq_ok hruns hkey
      exact (ofKey_matched_iff hrun).mp
        (hall result ((mem_of_mapM_eq_ok_iff hruns).mpr ⟨key, hkey, hrun⟩))
    · intro hall result hresult
      obtain ⟨key, hkey, hrun⟩ := (mem_of_mapM_eq_ok_iff hruns).mp hresult
      exact (ofKey_matched_iff hrun).mpr (hall key hkey)
  · intro key hkey e a he ha
    obtain ⟨result, hrun⟩ := exists_eq_ok_of_mapM_eq_ok hruns hkey
    obtain ⟨b, hb⟩ := exists_rowsMatch_of_ofKey hrun he ha
    exact ⟨b, hb, exists_matchAnyOrder_singleton hb⟩

end

end RowMatch

namespace Table

/-- A row with the second key that takes any value, and two with the first. -/
def secondThenFirst : Table where
  columns := [⟨none, .integer, true⟩, ⟨none, .boolean, false⟩]
  rows := [⟨[.literal (.integer 2), .predicate ⟨"any", Option.isSome⟩]⟩,
    ⟨[.literal (.integer 1), .literal (.boolean true)]⟩,
    ⟨[.literal (.integer 1), .literal (.boolean false)]⟩]
  conversion := .strict

def firstThirdSecond : Table where
  columns := [⟨none, .integer, true⟩, ⟨none, .boolean, false⟩]
  rows := [⟨[.literal (.integer 1), .literal (.boolean false)]⟩,
    ⟨[.literal (.integer 3), .literal (.boolean true)]⟩,
    ⟨[.literal (.integer 2), .literal (.boolean true)]⟩,
    ⟨[.literal (.integer 1), .literal (.boolean true)]⟩]
  conversion := .strict

end Table

/-- The third key has no expected row. -/
theorem RowMatch.byKey_keywise_secondThenFirst :
    ∃ keys, RowMatch.Keywise {} (.positional .strict) .secondThenFirst .firstThirdSecond keys
      ⟨false, [.both 0 2, .both 1 3, .both 2 0, .actualOnly 1]⟩ := by
  have hresult : RowMatch.byKey {} (.positional .strict) .secondThenFirst .firstThirdSecond =
      .ok ⟨false, [.both 0 2, .both 1 3, .both 2 0, .actualOnly 1]⟩ := by
    cbv
  exact RowMatch.byKey_keywise hresult

end TableDiff
