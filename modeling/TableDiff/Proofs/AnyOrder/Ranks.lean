import TableDiff.Proofs.AnyOrder.Verdict
import TableDiff.Proofs.PerfectMatching.Kinds

/-!
# Which rows greedy pairing joins

Rows without predicates fall into classes of rows that match each other.  Within a class, the rows
of either side come in canonical order, and greedy pairing joins the first with the first, the
second with the second, and so on until one side is used up.  So no other pairing has more pairs.
-/

namespace TableDiff

/-! ## Canonical order -/

/-- Rows are ordered by their rendered cells, and by position where these are equal. -/
def Entry.Before (x y : Entry) : Prop :=
  compareLex (compareOn (·.row.canonicalKey)) (compareOn (·.position)) x y = .lt

instance : DecidableRel Entry.Before := fun _ _ => inferInstanceAs (Decidable (_ = _))

namespace Entry

variable {x y : Entry} {entries : List Entry}

theorem Before.not_before (h : x.Before y) : ¬y.Before x :=
  Std.OrientedCmp.not_lt_of_lt h

theorem not_before_self (x : Entry) : ¬x.Before x := by
  intro h
  exact h.not_before h

theorem before_of_isLE
    (hle : (compareLex (compareOn (·.row.canonicalKey)) (compareOn (·.position)) x y).isLE = true)
    (hne : x.position ≠ y.position) : x.Before y := by
  rcases Ordering.isLE_iff_eq_lt_or_eq_eq.mp hle with hlt | heq
  · exact hlt
  · have hposition := (compareLex_eq_eq.mp heq).2
    exact absurd (Nat.compare_eq_eq.mp hposition) hne

theorem nodup_of_pairwise_before (h : entries.Pairwise Before) : entries.Nodup := by
  refine h.imp fun {x y} hxy heq => ?_
  rw [heq] at hxy
  exact not_before_self y hxy

end Entry

theorem pairwise_canonicalOrder {entries : List Entry} (h : (entries.map (·.position)).Nodup) :
    (canonicalOrder entries).Pairwise Entry.Before := by
  have hsorted := pairwise_sortBy (compareLex (compareOn (·.1)) (compareOn (·.2.position)))
    (entries.map fun e => (e.row.canonicalKey, e))
  have hdistinct : (canonicalOrder entries).Pairwise fun x y => x.position ≠ y.position := by
    have hperm := (canonicalOrder_perm entries).map Entry.position
    exact List.pairwise_map.mp (hperm.nodup_iff.mpr h)
  rw [canonicalOrder, List.pairwise_map] at hdistinct ⊢
  refine (hsorted.and hdistinct).imp_of_mem ?_
  rintro p q hp hq ⟨hle, hne⟩
  rw [mem_sortBy, List.mem_map] at hp hq
  obtain ⟨x, _, rfl⟩ := hp
  obtain ⟨y, _, rfl⟩ := hq
  exact Entry.before_of_isLE hle hne

/-! ## Ranks -/

namespace CellMatcher

/-- How many expected rows before `e` match `a`. -/
def expectedRank (m : CellMatcher) (expected : List Entry) (e a : Entry) : Nat :=
  expected.countP fun x => decide (x.Before e ∧ m.Joins x a)

/-- How many actual rows before `a` are matched by `e`. -/
def actualRank (m : CellMatcher) (actual : List Entry) (e a : Entry) : Nat :=
  actual.countP fun b => decide (b.Before a ∧ m.Joins e b)

variable {m : CellMatcher} {e a x b : Entry} {expected expected' actual actual' : List Entry}

theorem expectedRank_perm (h : expected.Perm expected') (e a : Entry) :
    m.expectedRank expected e a = m.expectedRank expected' e a :=
  h.countP_eq _

theorem actualRank_perm (h : actual.Perm actual') (e a : Entry) :
    m.actualRank actual e a = m.actualRank actual' e a :=
  h.countP_eq _

theorem expectedRank_cons (m : CellMatcher) (x : Entry) (expected : List Entry) (e a : Entry) :
    m.expectedRank (x :: expected) e a =
      m.expectedRank expected e a + if x.Before e ∧ m.Joins x a then 1 else 0 := by
  simp [expectedRank, List.countP_cons]

theorem actualRank_cons (m : CellMatcher) (b : Entry) (actual : List Entry) (e a : Entry) :
    m.actualRank (b :: actual) e a =
      m.actualRank actual e a + if b.Before a ∧ m.Joins e b then 1 else 0 := by
  simp [actualRank, List.countP_cons]

theorem actualRank_eq_zero_iff :
    m.actualRank actual e a = 0 ↔ ∀ b ∈ actual, b.Before a → ¬m.Joins e b := by
  simp [actualRank, List.countP_eq_zero]

theorem expectedRank_first (h : ∀ x ∈ expected, e.Before x) (a : Entry) :
    m.expectedRank (e :: expected) e a = 0 := by
  rw [expectedRank, List.countP_eq_zero, List.forall_mem_cons]
  constructor
  · simp [Entry.not_before_self]
  · intro x hx
    simp [(h x hx).not_before]

end CellMatcher

section

variable {m : CellMatcher} {e a : Entry} {expected available others left : List Entry}
  {pairs : List (Entry × Entry)}

/-- Of `a` and the other rows, `a` is the first one that `e` matches. -/
structure CellMatcher.TakesFirst (m : CellMatcher) (e a : Entry) (others : List Entry) : Prop where
  joins : m.Joins e a
  before : ∀ b ∈ others, m.Joins e b → a.Before b

theorem takesFirst_of_takeMatch (h : takeMatch m e.row available = .ok (some (a, others)))
    (hsorted : available.Pairwise Entry.Before) :
    m.TakesFirst e a others ∧ available.Perm (a :: others) ∧ others.Pairwise Entry.Before := by
  obtain ⟨before, after, rfl, rfl, htaken, hbefore⟩ := exists_split_of_takeMatch h
  rw [List.pairwise_append] at hsorted
  obtain ⟨hsortedBefore, hsortedAfter, hacross⟩ := hsorted
  rw [List.pairwise_cons] at hsortedAfter
  refine ⟨⟨htaken, ?_⟩, List.perm_middle, ?_⟩
  · intro b hb hjoins
    rcases List.mem_append.mp hb with hb | hb
    · rw [CellMatcher.Joins, hbefore b hb] at hjoins
      cases hjoins
    · exact hsortedAfter.1 b hb
  · refine List.pairwise_append.mpr ⟨hsortedBefore, hsortedAfter.2, ?_⟩
    intro x hx y hy
    exact hacross x hx y (List.mem_cons_of_mem a hy)

theorem not_joins_of_takeMatch_eq_none (h : takeMatch m e.row available = .ok none) :
    ∀ a ∈ available, ¬m.Joins e a := by
  intro a ha hjoins
  rw [CellMatcher.Joins, takeMatch_eq_none h a ha] at hjoins
  cases hjoins

end

section

variable {m : CellMatcher} {e a x y : Entry} {expected available others left : List Entry}
  {pairs : List (Entry × Entry)}

/-- Actual rows that one expected row matches are matched by the same expected rows. -/
def CellMatcher.Exchanges (m : CellMatcher) (expected actual : List Entry) : Prop :=
  ∀ e ∈ expected, ∀ x ∈ expected, ∀ a ∈ actual, ∀ a' ∈ actual,
    m.Joins e a → m.Joins e a' → m.Joins x a → m.Joins x a'

theorem CellMatcher.Exchanges.subset {expected' available' : List Entry}
    (h : m.Exchanges expected available) (hexpected : expected' ⊆ expected)
    (havailable : available' ⊆ available) : m.Exchanges expected' available' := by
  intro e he x hx a ha a' ha'
  exact h e (hexpected he) x (hexpected hx) a (havailable ha) a' (havailable ha')

/-- The first expected row has the rank of the first row that it matches, and of no other. -/
theorem rank_eq_rank_first_iff (hsorted : ∀ x ∈ expected, e.Before x)
    (htakes : m.TakesFirst e y others) (ha : a ∈ y :: others) :
    (m.Joins e a ∧ m.expectedRank (e :: expected) e a = m.actualRank (y :: others) e a) ↔
      a = y := by
  rw [CellMatcher.expectedRank_first hsorted, eq_comm (a := 0),
    CellMatcher.actualRank_eq_zero_iff]
  constructor
  · rintro ⟨hea, hnone⟩
    rcases List.mem_cons.mp ha with rfl | ha
    · rfl
    · exact absurd htakes.joins (hnone y List.mem_cons_self (htakes.before a ha hea))
  · rintro rfl
    refine ⟨htakes.joins, List.forall_mem_cons.mpr ⟨?_, ?_⟩⟩
    · intro hself
      exact absurd hself (Entry.not_before_self a)
    · intro b hb hba hjoins
      exact (htakes.before b hb hjoins).not_before hba

theorem rank_ne_rank_taken (hexchange : m.Exchanges (x :: expected) (y :: others))
    (htakes : m.TakesFirst x y others) (he : e ∈ expected) (hxe : x.Before e)
    (hey : m.Joins e y) :
    m.expectedRank (x :: expected) e y ≠ m.actualRank (y :: others) e y := by
  have hnone : m.actualRank (y :: others) e y = 0 := by
    rw [CellMatcher.actualRank_eq_zero_iff, List.forall_mem_cons]
    constructor
    · intro hself
      exact absurd hself (Entry.not_before_self y)
    intro b hb hby heb
    have hxb := hexchange e (List.mem_cons_of_mem x he) x List.mem_cons_self y List.mem_cons_self
      b (List.mem_cons_of_mem y hb) hey heb htakes.joins
    exact (htakes.before b hb hxb).not_before hby
  rw [hnone, CellMatcher.expectedRank_cons, if_pos ⟨hxe, htakes.joins⟩]
  exact Nat.succ_ne_zero _

theorem rank_eq_rank_later_iff (hexchange : m.Exchanges (x :: expected) (y :: others))
    (htakes : m.TakesFirst x y others) (he : e ∈ expected) (ha : a ∈ others)
    (hxe : x.Before e) (hea : m.Joins e a) :
    m.expectedRank (x :: expected) e a = m.actualRank (y :: others) e a ↔
      m.expectedRank expected e a = m.actualRank others e a := by
  have hx : x ∈ x :: expected := List.mem_cons_self
  have hy : y ∈ y :: others := List.mem_cons_self
  have he := List.mem_cons_of_mem x he
  have ha' := List.mem_cons_of_mem y ha
  have hsame : (x.Before e ∧ m.Joins x a) ↔ (y.Before a ∧ m.Joins e y) := by
    constructor
    · rintro ⟨_, hxa⟩
      exact ⟨htakes.before a ha hxa, hexchange x hx e he a ha' y hy hxa htakes.joins hea⟩
    · rintro ⟨_, hey⟩
      exact ⟨hxe, hexchange e he x hx y hy a ha' hey hea htakes.joins⟩
  rw [CellMatcher.expectedRank_cons, CellMatcher.actualRank_cons, if_congr hsame rfl rfl,
    Nat.add_right_cancel_iff]

/-- Greedy pairing joins an expected and an actual row just if they match and have the same rank,
each among the rows that the other one matches. -/
theorem mem_pairGreedily_iff (h : pairGreedily m expected available = .ok (pairs, left))
    (hexpected : expected.Pairwise Entry.Before) (havailable : available.Pairwise Entry.Before)
    (hexchange : m.Exchanges expected available) (he : e ∈ expected) (ha : a ∈ available) :
    (e, a) ∈ pairs ↔
      m.Joins e a ∧ m.expectedRank expected e a = m.actualRank available e a := by
  -- the first expected row takes `y`, and the ranks of the later pairs shift together
  induction expected generalizing available pairs left with
  | nil => cases he
  | cons x expected ih =>
      obtain ⟨hbefore, hsorted⟩ := List.pairwise_cons.mp hexpected
      have hnotMem : x ∉ expected := by
        intro hx
        exact Entry.not_before_self x (hbefore x hx)
      rcases pairGreedily_cons_eq_ok h with ⟨y, others, rest, htake, hrec, rfl⟩ | ⟨htake, hrec⟩
      · obtain ⟨htakes, hperm, hothers⟩ := takesFirst_of_takeMatch htake havailable
        have hnodup := hperm.nodup_iff.mp (Entry.nodup_of_pairwise_before havailable)
        have hnotOther := (List.nodup_cons.mp hnodup).1
        have hexchange := hexchange.subset (List.Subset.refl _) hperm.symm.subset
        have hrest := pairGreedily_sound hrec
        have hnotFirst : (x, a) ∉ rest := by
          intro hmem
          exact hnotMem (hrest.1.subset (List.mem_map_of_mem hmem))
        have hnotTaken : (e, y) ∉ rest := by
          intro hmem
          exact hnotOther (hrest.2.1.subset (List.mem_append_left left (List.mem_map_of_mem hmem)))
        rw [CellMatcher.actualRank_perm hperm, List.mem_cons, Prod.mk.injEq]
        have ha := hperm.subset ha
        rcases List.mem_cons.mp he with rfl | he
        · rw [rank_eq_rank_first_iff hbefore htakes ha]
          simp [hnotFirst]
        · have hne : e ≠ x := by
            intro heq
            exact hnotMem (heq ▸ he)
          rcases List.mem_cons.mp ha with rfl | ha
          · have hrank := rank_ne_rank_taken hexchange htakes he (hbefore e he)
            simpa [hne, hnotTaken] using hrank
          · have hsub := hexchange.subset (List.subset_cons_self x expected)
              (List.subset_cons_self y others)
            simp only [hne, false_and, false_or]
            rw [ih hrec hsorted hothers hsub he ha]
            refine and_congr_right ?_
            intro hea
            rw [rank_eq_rank_later_iff hexchange htakes he ha (hbefore e he) hea]
      · have hnone := not_joins_of_takeMatch_eq_none htake
        rcases List.mem_cons.mp he with rfl | he
        · have hnotMem : (e, a) ∉ pairs := by
            intro hmem
            exact hnotMem ((pairGreedily_sound hrec).1.subset (List.mem_map_of_mem hmem))
          simp [hnotMem, hnone a ha]
        · have hsub := hexchange.subset (List.subset_cons_self x expected) (List.Subset.refl _)
          have hskip : ¬(x.Before e ∧ m.Joins x a) := by
            intro hx
            exact hnone a ha hx.2
          rw [ih hrec hsorted havailable hsub he ha, CellMatcher.expectedRank_cons,
            if_neg hskip, Nat.add_zero]

end

/-! ## A largest pairing -/

section

variable {α β : Type} {R : α → β → Prop} {x : α} {y : β} {xs : List α} {ys : List β}
  {pairs : List (α × β)}

theorem subperm_cons_cases {l : List α} (h : l.Subperm (x :: xs)) :
    l.Subperm xs ∨ ∃ rest, l.Perm (x :: rest) ∧ rest.Subperm xs := by
  obtain ⟨sub, hperm, hsub⟩ := h
  cases hsub with
  | cons _ hsub => exact .inl ⟨sub, hperm, hsub⟩
  | cons_cons _ hsub => exact .inr ⟨_, hperm.symm, hsub.subperm⟩

/-- Without one element on each side, a pairing loses one pair at most: if both had partners, these
can be paired with each other. -/
theorem PartialMatching.exists_of_cons (h : PartialMatching R (x :: xs) (y :: ys) pairs)
    (hexchange : ∀ x' ∈ xs, ∀ y' ∈ ys, R x y' → R x' y → R x' y') :
    ∃ rest, PartialMatching R xs ys rest ∧ pairs.length ≤ rest.length + 1 := by
  have hpairs : Matchable R (pairs.map Prod.fst) (pairs.map Prod.snd) :=
    ⟨pairs, .refl _, .refl _, h.related⟩
  obtain ⟨xs', ys', hmatchable, hxs, hys, hlength⟩ : ∃ xs' ys', Matchable R xs' ys' ∧
      xs'.Subperm xs ∧ ys'.Subperm ys ∧ pairs.length ≤ xs'.length + 1 := by
    rcases subperm_cons_cases h.left with hxs | ⟨xs', hperm, hxs⟩
    · rcases subperm_cons_cases h.right with hys | ⟨ys', hperm', hys⟩
      · exact ⟨_, _, hpairs, hxs, hys, by simp⟩
      · obtain ⟨x', xs', _, hperm, hrest⟩ := (hpairs.perm (.refl _) hperm').swap.exists_partner
        have hlength := hperm.length_eq
        refine ⟨xs', ys', hrest.swap, ?_, hys, by simpa using hlength.le⟩
        exact ((List.sublist_cons_self x' xs').subperm.trans hperm.symm.subperm).trans hxs
    · have hlength := hperm.length_eq
      rcases subperm_cons_cases h.right with hys | ⟨ys', hperm', hys⟩
      · obtain ⟨y', ys', _, hperm', hrest⟩ := (hpairs.perm hperm (.refl _)).exists_partner
        refine ⟨xs', ys', hrest, hxs, ?_, by simpa using hlength.le⟩
        exact ((List.sublist_cons_self y' ys').subperm.trans hperm'.symm.subperm).trans hys
      · refine ⟨xs', ys', ?_, hxs, hys, by simpa using hlength.le⟩
        apply (hpairs.perm hperm hperm').of_cons_of_exchange
        intro x' hx' y' hy'
        exact hexchange x' (hxs.subset hx') y' (hys.subset hy')
  obtain ⟨rest, hrest⟩ := hmatchable
  refine ⟨rest, ⟨hrest.left.subperm.trans hxs, hrest.right.subperm.trans hys, hrest.related⟩, ?_⟩
  have hrestLength := hrest.left.length_eq
  rw [List.length_map] at hrestLength
  rwa [hrestLength]

end

section

variable {m : CellMatcher} {expected available literal actual left : List Entry}
  {pairs others : List (Entry × Entry)}

/-- No pairing of matching rows has more pairs than the greedy one. -/
theorem length_le_of_pairGreedily (h : pairGreedily m expected available = .ok (pairs, left))
    (hexchange : m.Exchanges expected available)
    (hothers : PartialMatching m.Joins expected available others) :
    others.length ≤ pairs.length := by
  -- the greedy pair may cut two pairs of the other pairing, whose ends then match each other
  induction expected generalizing available pairs left others with
  | nil =>
      have hlength := hothers.left.length_le
      rw [List.length_map, List.length_nil] at hlength
      omega
  | cons x expected ih =>
      have hsub : expected ⊆ x :: expected := List.subset_cons_self x expected
      rcases pairGreedily_cons_eq_ok h with ⟨y, rest, pairs, htake, hrec, rfl⟩ | ⟨htake, hrec⟩
      · obtain ⟨hjoins, hperm⟩ := takeMatch_eq_some htake
        have hexchange := hexchange.subset (List.Subset.refl _) hperm.symm.subset
        obtain ⟨fewer, hfewer, hlength⟩ := (hothers.perm (.refl _) hperm).exists_of_cons
          fun x' hx' y' hy' => hexchange x List.mem_cons_self x' (hsub hx') y List.mem_cons_self
            y' (List.mem_cons_of_mem y hy') hjoins
        have hle := ih hrec (hexchange.subset hsub (List.subset_cons_self y rest)) hfewer
        rw [List.length_cons]
        omega
      · rcases subperm_cons_cases hothers.left with hleft | ⟨firsts, hperm, _⟩
        · exact ih hrec (hexchange.subset hsub (List.Subset.refl _))
            ⟨hleft, hothers.right, hothers.related⟩
        · obtain ⟨p, hp, rfl⟩ := List.mem_map.mp (hperm.symm.subset List.mem_cons_self)
          exact absurd (hothers.related p hp)
            (not_joins_of_takeMatch_eq_none htake p.2 (hothers.mem_right hp))

/-! ## The rows of two tables -/

theorem pairwise_position_of_pairLiteralRows
    (h : pairLiteralRows m literal actual = .ok (pairs, left)) :
    left.Pairwise fun a b => a.position ≤ b.position := by
  obtain ⟨⟨pairs', rest⟩, _, hpure⟩ := bind_eq_ok_iff.mp h
  cases hpure
  exact (pairwise_sortBy (compareOn (·.position)) rest).imp Nat.isLE_compare.mp

theorem filter_unpaired
    (hnodup : ((pairs.map Prod.snd ++ left).map (·.position)).Nodup) :
    (pairs.map Prod.snd ++ left).filter
      (fun a => pairs.all fun p => p.2.position != a.position) = left := by
  rw [List.map_append, List.nodup_append] at hnodup
  obtain ⟨_, _, hacross⟩ := hnodup
  have hpaired : (pairs.map Prod.snd).filter
      (fun a => pairs.all fun p => p.2.position != a.position) = [] := by
    rw [List.filter_eq_nil_iff, List.forall_mem_map]
    intro p hp hall
    simpa using List.all_eq_true.mp hall p hp
  have hleft : left.filter (fun a => pairs.all fun p => p.2.position != a.position) = left := by
    rw [List.filter_eq_self]
    intro a ha
    rw [List.all_eq_true]
    intro p hp
    rw [bne_iff_ne]
    exact hacross _ (List.mem_map_of_mem (List.mem_map_of_mem hp)) _ (List.mem_map_of_mem ha)
  rw [List.filter_append, hpaired, hleft, List.nil_append]

/-- The actual rows left over are those in no pair, in their order. -/
theorem left_eq_of_pairLiteralRows (h : pairLiteralRows m literal actual = .ok (pairs, left))
    (hpositions : (actual.map (·.position)).Pairwise (· < ·)) :
    left = actual.filter fun a => pairs.all fun p => p.2.position != a.position := by
  have hperm := (pairLiteralRows_sound h).2
  have hnodup := hpositions.imp Nat.ne_of_lt
  have hleft := hperm.filter fun a => pairs.all fun p => p.2.position != a.position
  rw [filter_unpaired ((hperm.map _).nodup_iff.mpr hnodup)] at hleft
  have hsorted : actual.Pairwise fun a b => a.position ≤ b.position :=
    (List.pairwise_map.mp hpositions).imp Nat.le_of_lt
  refine hleft.eq_of_pairwise ?_ (pairwise_position_of_pairLiteralRows h)
    (hsorted.sublist List.filter_sublist)
  intro a b ha hb hle hge
  exact List.inj_on_of_nodup_map hnodup (hperm.subset (List.mem_append_right _ ha))
    (List.mem_of_mem_filter hb) (Nat.le_antisymm hle hge)

end

namespace Entry

/-- The rows of a table without predicates. -/
def literalsOf (t : Table) : List Entry := (ofTable t).filter fun e => !e.row.hasPredicate

theorem map_position_ofTable (t : Table) :
    (ofTable t).map (·.position) = List.range t.rows.length := by
  rw [← map_index_ofTable, ofTable, List.map_map, List.map_map]
  rfl

end Entry

/-- Rows without predicates only match rows of one class. -/
theorem exchanges_literalsOf {s : Table} (hs : s.Built) (m : CellMatcher) (actual : List Entry) :
    m.Exchanges (Entry.literalsOf s) actual := by
  intro e he x hx a _ a' _ ha ha' hxa
  obtain ⟨he, hliteral⟩ := List.mem_filter.mp he
  obtain ⟨hx, hliteral'⟩ := List.mem_filter.mp hx
  refine joins_exchange_of_mem hs he hx (by simpa using hliteral) ?_ ha ha' hxa
  intro p hp
  have hnone : ∀ cell ∈ x.row.cells, cell.isPredicate = false := by
    simpa [Row.hasPredicate] using hliteral'
  cases hnone _ hp

/-- In each class of rows that match, the first rows of both sides are paired, the second rows, and
so on.  No one-to-one pairing of rows that match has more pairs, and the actual rows in no pair are
left over in their order. -/
theorem pairLiteralRows_ofTable (m : CellMatcher) (s t : Table) (hs : s.Built)
    (ht : t.PredicateFree) :
    ∃ pairs left,
      pairLiteralRows m (Entry.literalsOf s) (Entry.ofTable t) = .ok (pairs, left) ∧
      (∀ e ∈ Entry.literalsOf s, ∀ a ∈ Entry.ofTable t,
        (e, a) ∈ pairs ↔ m.rowsMatch e.row a.row = .ok true ∧
          m.expectedRank (Entry.literalsOf s) e a = m.actualRank (Entry.ofTable t) e a) ∧
      PartialMatching m.Joins (Entry.literalsOf s) (Entry.ofTable t) pairs ∧
      (∀ others, PartialMatching m.Joins (Entry.literalsOf s) (Entry.ofTable t) others →
        others.length ≤ pairs.length) ∧
      left = (Entry.ofTable t).filter fun a => pairs.all fun p => p.2.position != a.position := by
  have hexchange := exchanges_literalsOf hs m (Entry.ofTable t)
  have hanswers : ∀ e ∈ Entry.literalsOf s, ∀ a ∈ Entry.ofTable t,
      ∃ b, m.rowsMatch e.row a.row = .ok b := by
    intro e _ a ha
    exact exists_rowsMatch_of_mem_ofTable m ht e.row ha
  obtain ⟨⟨pairs, left⟩, hpairs⟩ := exists_pairLiteralRows_eq_ok hanswers
  obtain ⟨rest, hgreedy, _⟩ := pairLiteralRows_eq_ok hpairs
  have hliteral := canonicalOrder_perm (Entry.literalsOf s)
  have hactual := canonicalOrder_perm (Entry.ofTable t)
  have hexchangeOrdered := hexchange.subset hliteral.subset hactual.subset
  have hpositions : ((Entry.ofTable t).map (·.position)).Pairwise (· < ·) := by
    rw [Entry.map_position_ofTable]
    exact List.pairwise_lt_range
  refine ⟨pairs, left, hpairs, ?_, ?_, ?_, left_eq_of_pairLiteralRows hpairs hpositions⟩
  · intro e he a ha
    have hpositions' : ((Entry.literalsOf s).map (·.position)).Nodup := by
      apply ((List.filter_sublist (l := Entry.ofTable s)).map (·.position)).nodup
      rw [Entry.map_position_ofTable]
      exact List.nodup_range
    rw [mem_pairGreedily_iff hgreedy (pairwise_canonicalOrder hpositions')
      (pairwise_canonicalOrder (hpositions.imp Nat.ne_of_lt)) hexchangeOrdered
      (hliteral.mem_iff.mpr he) (hactual.mem_iff.mpr ha),
      CellMatcher.expectedRank_perm hliteral, CellMatcher.actualRank_perm hactual]
    rfl
  · have hsound := pairLiteralRows_sound hpairs
    have hpaired : (pairs.map Prod.snd).Subperm (Entry.ofTable t) :=
      (List.sublist_append_left _ left).subperm.trans hsound.2.subperm
    exact ⟨hsound.1.left, hpaired, hsound.1.related⟩
  · intro others hothers
    exact length_le_of_pairGreedily hgreedy hexchangeOrdered
      (hothers.perm hliteral.symm hactual.symm)

namespace Table

def threeSevenThree : Table where
  columns := [⟨none, .integer, false⟩]
  rows := [⟨[.literal (.integer 3)]⟩, ⟨[.literal (.integer 7)]⟩, ⟨[.literal (.integer 3)]⟩]
  conversion := .strict

def threeEightThree : Table where
  columns := [⟨none, .long, false⟩]
  rows := [⟨[.literal (.long 3)]⟩, ⟨[.literal (.long 8)]⟩, ⟨[.literal (.long 3)]⟩]
  conversion := .strict

theorem built_threeSevenThree : threeSevenThree.Built := built_of_reread rfl

theorem predicateFree_threeEightThree : threeEightThree.PredicateFree := by
  simp [PredicateFree, threeEightThree, Row.hasPredicate, Value.isPredicate]

end Table

/-- The second three is paired with the second three. -/
theorem pairLiteralRows_ofTable_threeSevenThree :
    ∃ pairs left,
      pairLiteralRows (.positional .relaxed) (Entry.literalsOf .threeSevenThree)
        (Entry.ofTable .threeEightThree) = .ok (pairs, left) ∧
      (⟨2, 2, ⟨[.literal (.integer 3)]⟩⟩, ⟨2, 2, ⟨[.literal (.long 3)]⟩⟩) ∈ pairs ∧
      (⟨2, 2, ⟨[.literal (.integer 3)]⟩⟩, ⟨0, 0, ⟨[.literal (.long 3)]⟩⟩) ∉ pairs := by
  obtain ⟨pairs, left, hpairs, hranks, _⟩ := pairLiteralRows_ofTable (.positional .relaxed)
    .threeSevenThree .threeEightThree Table.built_threeSevenThree
    Table.predicateFree_threeEightThree
  have he : (⟨2, 2, ⟨[.literal (.integer 3)]⟩⟩ : Entry) ∈ Entry.literalsOf .threeSevenThree :=
    List.mem_filter.mpr ⟨Entry.mem_ofTable rfl, rfl⟩
  refine ⟨pairs, left, hpairs, ?_, ?_⟩
  · rw [hranks _ he _ (Entry.mem_ofTable rfl)]
    decide
  · rw [hranks _ he _ (Entry.mem_ofTable rfl)]
    decide

end TableDiff
