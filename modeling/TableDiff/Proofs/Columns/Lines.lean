import TableDiff.Columns
import TableDiff.Proofs.DiffLine

/-!
# The lines of columns that are paired by name

Expected columns take actual columns of their name in turn, always the first that is still free.
Names may repeat on either side.  No column is lost on the way, the occurrences of a name are paired
in their order for as long as both sides have one, and no other way to join columns of the same name
joins more of them.
-/

namespace TableDiff

open DiffLine

/-- Columns are taken one by one from those that are still free. -/
inductive PairsByName :
    List (String × Nat) → List (String × Nat) → List DiffLine → Prop where
  | rest (free : List (String × Nat)) : PairsByName [] free (free.map fun a => actualOnly a.2)
  | taken {name : String} {i j : Nat} {expected before after : List (String × Nat)}
      {lines : List DiffLine} (hfirst : ∀ a ∈ before, a.1 ≠ name)
      (h : PairsByName expected (before ++ after) lines) :
      PairsByName ((name, i) :: expected) (before ++ (name, j) :: after) (both i j :: lines)
  | missing {name : String} {i : Nat} {expected free : List (String × Nat)}
      {lines : List DiffLine} (hnone : ∀ a ∈ free, a.1 ≠ name)
      (h : PairsByName expected free lines) :
      PairsByName ((name, i) :: expected) free (expectedOnly i :: lines)

theorem pairsByName_pairNames (expected free : List (String × Nat)) :
    PairsByName expected free (pairNames expected free) := by
  induction expected generalizing free with
  | nil => exact .rest free
  | cons e expected ih =>
      obtain ⟨name, i⟩ := e
      unfold pairNames
      split
      · next found j hfound =>
        obtain ⟨hname, before, after, rfl, hfirst⟩ := List.find?_eq_some_iff_append.mp hfound
        rw [beq_iff_eq] at hname
        subst hname
        have hbefore : ∀ a ∈ before, ¬(a.1 == found) = true := by
          simpa using hfirst
        rw [List.eraseP_append_right _ hbefore, List.eraseP_cons_of_pos (by simp)]
        have hothers : ∀ a ∈ before, a.1 ≠ found := by
          intro a ha
          simpa using hbefore a ha
        exact .taken hothers (ih _)
      · next hnone =>
        have hothers : ∀ a ∈ free, a.1 ≠ name := by
          intro a ha
          simpa using List.find?_eq_none.mp hnone a ha
        exact .missing hothers (ih free)

/-- The name of both columns on a line, if they have the same. -/
def DiffLine.sharedName? (names names' : List String) (line : DiffLine) : Option String :=
  (line.expected?.bind (names[·]?)).filter fun name => line.actual?.bind (names'[·]?) == some name

/-- Where a name stands in a list of names with their places. -/
def placesOf (name : String) (named : List (String × Nat)) : List Nat :=
  (named.filter (·.1 == name)).map (·.2)

section

variable {names names' : List String} {name : String} {i j : Nat}
  {expected free : List (String × Nat)} {lines : List DiffLine}

@[simp] theorem sharedName?_expectedOnly (i : Nat) :
    (expectedOnly i).sharedName? names names' = none := by
  simp [sharedName?, expectedOnly]

@[simp] theorem sharedName?_actualOnly (j : Nat) :
    (actualOnly j).sharedName? names names' = none := by
  simp [sharedName?, actualOnly]

theorem sharedName?_both (hi : names[i]? = some name) (hj : names'[j]? = some name) :
    (both i j).sharedName? names names' = some name := by
  simp [sharedName?, both, hi, hj]

theorem placesOf_zipIdx (names : List String) (name : String) :
    placesOf name names.zipIdx = names.idxsOf name := by
  have hfrom : ∀ start, placesOf name (names.zipIdx start) = names.idxsOf name start := by
    induction names with
    | nil =>
        intro start
        rfl
    | cons n names ih =>
        intro start
        rw [placesOf, List.zipIdx_cons, List.filter_cons, List.idxsOf_cons, ← ih, placesOf]
        split <;> rfl
  exact hfrom 0

theorem placesOf_cons_self (name : String) (i : Nat) (named : List (String × Nat)) :
    placesOf name ((name, i) :: named) = i :: placesOf name named := by
  simp [placesOf]

theorem placesOf_cons_ne {name' : String} (hne : name' ≠ name) (i : Nat)
    (named : List (String × Nat)) :
    placesOf name ((name', i) :: named) = placesOf name named := by
  simp [placesOf, hne]

theorem placesOf_append (name : String) (before after : List (String × Nat)) :
    placesOf name (before ++ after) = placesOf name before ++ placesOf name after := by
  simp [placesOf]

theorem placesOf_eq_nil {named : List (String × Nat)} (h : ∀ p ∈ named, p.1 ≠ name) :
    placesOf name named = [] := by
  simpa [placesOf, List.filter_eq_nil_iff] using h

namespace PairsByName

theorem covers (h : PairsByName expected free lines) :
    Covers lines (expected.map (·.2)) (free.map (·.2)) := by
  induction h with
  | rest free =>
      have hrest := covers_map_actualOnly (free.map (·.2))
      rwa [List.map_map] at hrest
  | taken _ _ ih =>
      refine ((Covers.both _ _).append ih).perm (.refl _) ?_
      rw [List.map_append, List.map_append, List.map_cons, List.singleton_append]
      exact List.perm_middle.symm
  | missing _ _ ih => exact (covers_map_expectedOnly [_]).append ih

/-- The lines of the expected columns come first, in the order of the columns. -/
theorem exists_append (h : PairsByName expected free lines) :
    ∃ (paired : List DiffLine) (left : List Nat), lines = paired ++ left.map actualOnly ∧
      paired.map (·.expected?) = expected.map (fun e => some e.2) ∧
      left.Sublist (free.map (·.2)) := by
  induction h with
  | rest free => exact ⟨[], free.map (·.2), by simp, rfl, .refl _⟩
  | taken _ _ ih =>
      obtain ⟨paired, left, rfl, hpaired, hleft⟩ := ih
      refine ⟨both _ _ :: paired, left, rfl, congrArg (some _ :: ·) hpaired, hleft.trans ?_⟩
      exact ((List.sublist_cons_self _ _).append_left _).map _
  | missing _ _ ih =>
      obtain ⟨paired, left, rfl, hpaired, hleft⟩ := ih
      exact ⟨expectedOnly _ :: paired, left, rfl, congrArg (some _ :: ·) hpaired, hleft⟩

theorem exists_name (h : PairsByName expected free lines) (hline : both i j ∈ lines) :
    ∃ name, (name, i) ∈ expected ∧ (name, j) ∈ free := by
  induction h with
  | rest free =>
      obtain ⟨a, _, ha⟩ := List.mem_map.mp hline
      cases ha
  | @taken name _ _ _ before after _ _ _ ih =>
      rcases List.mem_cons.mp hline with heq | hline
      · cases heq
        exact ⟨name, List.mem_cons_self, by simp⟩
      · obtain ⟨name', hi, hj⟩ := ih hline
        refine ⟨name', List.mem_cons_of_mem _ hi, ?_⟩
        exact ((List.sublist_cons_self _ _).append_left before).subset hj
  | missing _ _ ih =>
      rcases List.mem_cons.mp hline with heq | hline
      · cases heq
      · obtain ⟨name', hi, hj⟩ := ih hline
        exact ⟨name', List.mem_cons_of_mem _ hi, hj⟩

/-- The occurrences of a name are paired in their order, for as long as both sides have one. -/
theorem filter_sharedName? (h : PairsByName expected free lines)
    (hnames : ∀ e ∈ expected, names[e.2]? = some e.1)
    (hnames' : ∀ a ∈ free, names'[a.2]? = some a.1) (name : String) :
    lines.filter (·.sharedName? names names' == some name) =
      ((placesOf name expected).zip (placesOf name free)).map fun p => both p.1 p.2 := by
  induction h with
  | rest free =>
      have hnone : ∀ line ∈ free.map fun a => actualOnly a.2,
          ¬(line.sharedName? names names' == some name) = true := by
        intro line hline
        obtain ⟨a, _, rfl⟩ := List.mem_map.mp hline
        simp
      rw [List.filter_eq_nil_iff.mpr hnone]
      rfl
  | @taken first i j _ before after _ hfirst _ ih =>
      have hi := hnames _ List.mem_cons_self
      have hj := hnames' (first, j) (by simp)
      have hothers : ∀ a ∈ before ++ after, names'[a.2]? = some a.1 := by
        intro a ha
        exact hnames' a (((List.sublist_cons_self _ _).append_left before).subset ha)
      have hrest := ih (List.forall_mem_cons.mp hnames).2 hothers
      rw [List.filter_cons, sharedName?_both hi hj, hrest, placesOf_append, placesOf_append]
      by_cases hname : first = name
      · subst hname
        rw [if_pos (by simp), placesOf_eq_nil hfirst, placesOf_cons_self, placesOf_cons_self]
        rfl
      · rw [if_neg (by simpa using hname), placesOf_cons_ne hname, placesOf_cons_ne hname]
  | @missing first i _ free _ hnone _ ih =>
      have hrest := ih (List.forall_mem_cons.mp hnames).2 hnames'
      rw [List.filter_cons, sharedName?_expectedOnly, if_neg (by simp), hrest]
      by_cases hname : first = name
      · subst hname
        rw [placesOf_eq_nil hnone, List.zip_nil_right, List.zip_nil_right]
      · rw [placesOf_cons_ne hname]

/-- If the same names are there as often on both sides, every column has a partner. -/
theorem all_isComplete (h : PairsByName expected free lines)
    (hnames : (expected.map (·.1)).Perm (free.map (·.1))) :
    ∀ line ∈ lines, line.isComplete = true := by
  induction h with
  | rest free =>
      have hfree : free = [] := by
        simpa using hnames.symm
      rw [hfree]
      intro _ hline
      cases hline
  | taken _ _ ih =>
      rw [List.map_append, List.map_cons, List.map_cons] at hnames
      have hrest := (hnames.trans List.perm_middle).cons_inv
      rw [← List.map_append] at hrest
      exact List.forall_mem_cons.mpr ⟨rfl, ih hrest⟩
  | missing hnone _ _ =>
      obtain ⟨a, ha, hname⟩ := List.mem_map.mp (hnames.subset List.mem_cons_self)
      exact absurd hname (hnone a ha)

end PairsByName

/-! ## Names with their places -/

/-- The lines pair the columns of two lists of names.  They show the expected columns in turn and
then those that no one has taken, leave none out, and join the first occurrence of a name with the
first, the second with the second, and so on. -/
structure NamePairing (names names' : List String) (lines : List DiffLine) : Prop where
  in_turn : ∃ (paired : List DiffLine) (left : List Nat), lines = paired ++ left.map actualOnly ∧
    paired.map (·.expected?) = (List.range names.length).map some ∧ left.Pairwise (· < ·)
  covers : Covers lines (List.range names.length) (List.range names'.length)
  related : ∀ i j, both i j ∈ lines → RelatedAt (· = ·) names names' i j
  occurrences : ∀ name, lines.filter (·.sharedName? names names' == some name) =
    ((names.idxsOf name).zip (names'.idxsOf name)).map fun p => both p.1 p.2

theorem namePairing_pairNames (names names' : List String) :
    NamePairing names names' (pairNames names.zipIdx names'.zipIdx) := by
  have hpairs := pairsByName_pairNames names.zipIdx names'.zipIdx
  have hplaces : ∀ names : List String, names.zipIdx.map (·.2) = List.range names.length := by
    intro names
    rw [List.zipIdx_map_snd, List.range_eq_range']
  have hat : ∀ (names : List String) (p : String × Nat), p ∈ names.zipIdx →
      names[p.2]? = some p.1 := by
    intro names p hp
    exact List.mem_zipIdx_iff_getElem?.mp hp
  constructor
  · obtain ⟨paired, left, hlines, hpaired, hleft⟩ := hpairs.exists_append
    refine ⟨paired, left, hlines, ?_, ?_⟩
    · rw [hpaired, ← hplaces names, List.map_map]
      rfl
    · rw [hplaces names'] at hleft
      exact List.pairwise_lt_range.sublist hleft
  · have hcovers := hpairs.covers
    rwa [hplaces, hplaces] at hcovers
  · intro i j hline
    obtain ⟨name, hi, hj⟩ := hpairs.exists_name hline
    exact ⟨name, name, hat names _ hi, hat names' _ hj, rfl⟩
  · intro name
    rw [hpairs.filter_sharedName? (hat names) (hat names') name, placesOf_zipIdx, placesOf_zipIdx]

theorem countP_getElem?_range (names : List String) (name : String) :
    (List.range names.length).countP (names[·]? == some name) = names.count name := by
  rw [← List.count_filterMap, (filterMap_getElem?_perm (.refl _)).count_eq]

namespace NamePairing

/-- Complete lines show just the expected columns in turn. -/
theorem map_expected?_eq (h : NamePairing names names' lines)
    (hcomplete : ∀ line ∈ lines, line.isComplete = true) :
    lines.map (·.expected?) = (List.range names.length).map some := by
  obtain ⟨paired, left, rfl, hpaired, _⟩ := h.in_turn
  have hleft : left = [] := by
    rw [List.eq_nil_iff_forall_not_mem]
    intro j hj
    cases hcomplete _ (List.mem_append_right _ (List.mem_map_of_mem hj))
  rw [hleft, List.map_nil, List.append_nil, hpaired]

/-- As many lines join columns of a name as there are on the side that has fewer of them. -/
theorem countP_sharedName? (h : NamePairing names names' lines) (name : String) :
    lines.countP (·.sharedName? names names' == some name) =
      min (names.count name) (names'.count name) := by
  rw [List.countP_eq_length_filter, h.occurrences, List.length_map, List.length_zip,
    List.length_idxsOf, List.length_idxsOf]

theorem isComplete_of_sharedName? {line : DiffLine}
    (h : (line.sharedName? names names').isSome = true) : line.isComplete = true := by
  obtain ⟨name, hname⟩ := Option.isSome_iff_exists.mp h
  obtain ⟨expected?, actual?⟩ := line
  cases expected? with
  | none => simp [sharedName?] at hname
  | some i =>
      cases actual? with
      | none => simp [sharedName?] at hname
      | some j => rfl

/-- No other way to join columns of the same name joins more of them. -/
theorem length_le (h : NamePairing names names' lines) {pairs : List (Nat × Nat)}
    (hpairs : PartialMatching (RelatedAt (· = ·) names names') (List.range names.length)
      (List.range names'.length) pairs) :
    pairs.length ≤ lines.countP (·.isComplete) := by
  have hcount : ∀ name, pairs.countP (names[·.1]? == some name) ≤
      min (names.count name) (names'.count name) := by
    intro name
    refine le_min ?_ ?_
    · have hle := hpairs.left.countP_le (names[·]? == some name)
      rwa [List.countP_map, countP_getElem?_range] at hle
    · have hle := hpairs.right.countP_le (names'[·]? == some name)
      rw [List.countP_map, countP_getElem?_range] at hle
      refine le_trans (List.countP_mono_left ?_) hle
      intro p hp hname
      obtain ⟨x, y, hx, hy, rfl⟩ := hpairs.related p hp
      rwa [Function.comp_apply, hy, ← hx]
  have hsub : (pairs.filterMap (names[·.1]?)).Subperm
      (lines.filterMap (·.sharedName? names names')) := by
    rw [List.subperm_ext_iff]
    intro name _
    rw [List.count_filterMap, List.count_filterMap, h.countP_sharedName?]
    exact hcount name
  have hnamed : ∀ p ∈ pairs, names[p.1]?.isSome = true := by
    intro p hp
    obtain ⟨x, _, hx, _⟩ := hpairs.related p hp
    rw [hx, Option.isSome_some]
  calc pairs.length = (pairs.filterMap (names[·.1]?)).length := by
        rw [List.length_filterMap_eq_countP, eq_comm, List.countP_eq_length]
        exact hnamed
    _ ≤ (lines.filterMap (·.sharedName? names names')).length := hsub.length_le
    _ = lines.countP fun line => (line.sharedName? names names').isSome :=
        List.length_filterMap_eq_countP
    _ ≤ lines.countP (·.isComplete) :=
        List.countP_mono_left fun _ _ => isComplete_of_sharedName?

end NamePairing

end

end TableDiff
