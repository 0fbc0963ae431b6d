import TableDiff.Proofs.Assignment

/-!
# The calls of a search

A search calls itself for each choice that it tries.  The calls are told as a relation, with how
deep they nest and how many dead ends they meet, and `run` computes just the answers of this
relation.  Every nested call has one row more that is matched, so calls nest no deeper than there
are unmatched rows.  Dead ends add up from choice to choice, and the search is given up at the one
with which their number reaches the limit.
-/

namespace TableDiff

namespace Search

/-! ## Stages and calls -/

/-- What a search is given when it is called: the pairs made so far, the rows and candidates that
they use, and the dead ends met before. -/
structure State where
  pairs : Pairing
  matched : IndexSet
  used : IndexSet
  deadEnds : Nat

namespace State

def pair (st : State) (row choice : Nat) (extended : Pairing) : State :=
  ⟨extended, st.matched.insert row, st.used.insert choice, st.deadEnds⟩

def charge (st : State) (charged : Nat) : State := { st with deadEnds := st.deadEnds + charged }

end State

/-- What is under way: a call, or going through the choices that are left for a row. -/
inductive Stage
  | call
  | choices (row : Nat) (left : List Nat)

/-- A stage nests `depth` calls, meets `charged` dead ends and ends with `answer`. -/
inductive Calls (s : Search) :
    Stage → State → (depth charged : Nat) → Except MatchError (Option Pairing) → Prop
  | complete {st : State} (hnext : s.primary.nextRow st.matched st.used = none) :
      Calls s .call st 1 0 (.ok (some st.pairs))
  | deadEnd {st : State} {row : Nat} {free : IndexSet}
      (hnext : s.primary.nextRow st.matched st.used = some (row, free))
      (hfree : free.isEmpty = true) (hlimit : st.deadEnds + 1 < s.limit) :
      Calls s .call st 1 1 (.ok none)
  | limit {st : State} {row : Nat} {free : IndexSet}
      (hnext : s.primary.nextRow st.matched st.used = some (row, free))
      (hfree : free.isEmpty = true) (hlimit : s.limit ≤ st.deadEnds + 1) :
      Calls s .call st 1 1 (.error (.tooManyPermutations s.limit))
  | branch {st : State} {row depth charged : Nat} {free : IndexSet}
      {answer : Except MatchError (Option Pairing)}
      (hnext : s.primary.nextRow st.matched st.used = some (row, free))
      (hfree : free.isEmpty = false)
      (hchoices : Calls s (.choices row (s.choices free)) st depth charged answer) :
      Calls s .call st (depth + 1) charged answer
  | exhausted {st : State} {row : Nat} : Calls s (.choices row []) st 0 0 (.ok none)
  | refused {st : State} {row choice : Nat} {left : List Nat} {e : MatchError}
      (hadd : st.pairs.add ⟨row, choice⟩ = .error e) :
      Calls s (.choices row (choice :: left)) st 0 0 (.error e)
  | failed {st : State} {row choice depth charged depth' charged' : Nat} {left : List Nat}
      {extended : Pairing} {answer : Except MatchError (Option Pairing)}
      (hadd : st.pairs.add ⟨row, choice⟩ = .ok extended)
      (hcall : Calls s .call (st.pair row choice extended) depth charged (.ok none))
      (hleft : Calls s (.choices row left) (st.charge charged) depth' charged' answer) :
      Calls s (.choices row (choice :: left)) st (max depth depth') (charged + charged') answer
  | settled {st : State} {row choice depth charged : Nat} {left : List Nat} {extended : Pairing}
      {answer : Except MatchError (Option Pairing)}
      (hadd : st.pairs.add ⟨row, choice⟩ = .ok extended)
      (hcall : Calls s .call (st.pair row choice extended) depth charged answer)
      (hanswer : answer ≠ .ok none) :
      Calls s (.choices row (choice :: left)) st depth charged answer

/-! ## What the search computes -/

/-- What the search computes in a stage. -/
def perform (s : Search) (st : State) : Stage → Except MatchError (Option Pairing × Nat)
  | .call => s.run st.pairs st.matched st.used st.deadEnds
  | .choices row left =>
    firstResult (fun choice deadEnds => do
      let extended ← st.pairs.add ⟨row, choice⟩
      s.run extended (st.matched.insert row) (st.used.insert choice) deadEnds) left st.deadEnds

variable {s : Search} {stage : Stage} {st : State} {depth charged : Nat}
  {answer : Except MatchError (Option Pairing)}

theorem perform_call {row : Nat} {free : IndexSet}
    (hnext : s.primary.nextRow st.matched st.used = some (row, free)) :
    s.perform st .call =
      if free.isEmpty then
        if s.limit ≤ st.deadEnds + 1 then .error (.tooManyPermutations s.limit)
        else .ok (none, st.deadEnds + 1)
      else s.perform st (.choices row (s.choices free)) := by
  rw [perform, run_eq, hnext]
  rfl

theorem perform_choices {row choice : Nat} {left : List Nat} {extended : Pairing}
    (hadd : st.pairs.add ⟨row, choice⟩ = .ok extended) :
    s.perform st (.choices row (choice :: left)) =
      match s.perform (st.pair row choice extended) .call with
      | .ok (none, deadEnds) => s.perform { st with deadEnds := deadEnds } (.choices row left)
      | result => result := by
  simp only [perform, firstResult, hadd, ok_bind, State.pair]
  cases s.run extended (st.matched.insert row) (st.used.insert choice) st.deadEnds with
  | error e => rfl
  | ok result =>
      obtain ⟨found, _⟩ := result
      cases found <;> rfl

namespace Calls

theorem perform_eq (h : s.Calls stage st depth charged answer) :
    s.perform st stage = answer.map fun found => (found, st.deadEnds + charged) := by
  induction h with
  | complete hnext =>
      rw [perform, run_eq, hnext]
      rfl
  | deadEnd hnext hfree hlimit =>
      rw [perform_call hnext, if_pos hfree, if_neg (by omega)]
      rfl
  | limit hnext hfree hlimit =>
      rw [perform_call hnext, if_pos hfree, if_pos hlimit]
      rfl
  | branch hnext hfree _ ih => rw [perform_call hnext, if_neg (by simp [hfree]), ih]
  | exhausted => rfl
  | refused hadd =>
      rw [perform, firstResult, hadd]
      rfl
  | failed hadd _ _ ihCall ihLeft =>
      rw [perform_choices hadd, ihCall, ← Nat.add_assoc]
      exact ihLeft
  | @settled _ _ _ _ _ _ _ answer hadd _ hanswer ih =>
      rw [perform_choices hadd, ih]
      cases answer with
      | error e => rfl
      | ok found =>
          cases found with
          | none => exact absurd rfl hanswer
          | some found => rfl

/-! ## Depth -/

/-- Each call that is nested in another one works with one row less that is not matched. -/
theorem depth_le (h : s.Calls stage st depth charged answer) :
    match stage with
    | .call => depth ≤ s.primary.unmatched st.matched + 1
    | .choices row _ => ∀ candidates, (row, candidates) ∈ s.primary.rows →
        st.matched.contains row = false → depth ≤ s.primary.unmatched st.matched := by
  induction h with
  | complete | deadEnd | limit => dsimp only; omega
  | branch hnext _ _ ih =>
      obtain ⟨candidates, hrow, hunmatched, _⟩ := Candidates.nextRow_eq_some hnext
      exact Nat.succ_le_succ (ih candidates hrow hunmatched)
  | exhausted | refused =>
      intro _ _ _
      exact Nat.zero_le _
  | failed _ _ _ ihCall ihLeft =>
      intro candidates hrow hunmatched
      have hlt := Candidates.unmatched_insert_lt hrow hunmatched
      exact max_le (ihCall.trans hlt) (ihLeft candidates hrow hunmatched)
  | settled _ _ _ ih =>
      intro candidates hrow hunmatched
      exact ih.trans (Candidates.unmatched_insert_lt hrow hunmatched)

end Calls

/-! ## Dead ends -/

/-- What the limit makes of dead ends: an answer is given below it, and the search is given up at
the first dead end that does not stay below. -/
def KeepsLimit (limit before charged : Nat) : Except MatchError (Option Pairing) → Prop
  | .ok _ => charged = 0 ∨ before + charged < limit
  | .error e => e = .tooManyPermutations limit ∧ before + charged = max limit (before + 1)

/-- Where a stage starts: the state is that of a partial assignment, and the choices are free
candidates of the next row. -/
def Ready (s : Search) (st : State) : Stage → Prop
  | .call => PartialAssignment s.primary st.pairs st.matched st.used
  | .choices row left => PartialAssignment s.primary st.pairs st.matched st.used ∧
      ∃ free, s.primary.nextRow st.matched st.used = some (row, free) ∧
        ∀ choice ∈ left, free.contains choice = true

theorem choices_ne_nil {row : Nat} {free : IndexSet} (hs : s.Valid)
    (hnext : s.primary.nextRow st.matched st.used = some (row, free))
    (hfree : free.isEmpty = false) : s.choices free ≠ [] := by
  intro hnil
  have hempty : free.isEmpty = true := by
    rw [IndexSet.isEmpty_iff]
    intro i
    rw [← Bool.not_eq_true, ← mem_choices hs hnext, hnil]
    exact List.not_mem_nil
  rw [hfree] at hempty
  cases hempty

namespace Ready

theorem call {st : State} {row : Nat} {free : IndexSet} (hs : s.Valid) (h : s.Ready st .call)
    (hnext : s.primary.nextRow st.matched st.used = some (row, free)) :
    s.Ready st (.choices row (s.choices free)) := by
  refine ⟨h, free, hnext, ?_⟩
  intro choice hchoice
  exact (mem_choices hs hnext).mp hchoice

variable {row choice : Nat} {left : List Nat} {extended : Pairing}

theorem add_eq (h : s.Ready st (.choices row (choice :: left))) :
    st.pairs.add ⟨row, choice⟩ = .ok (st.pairs.push ⟨row, choice⟩) := by
  obtain ⟨hstate, free, hnext, hfree⟩ := h
  have hfresh := hstate.fresh hnext (hfree choice List.mem_cons_self)
  exact Pairing.add_eq_ok hfresh.1 hfresh.2

theorem pair (h : s.Ready st (.choices row (choice :: left)))
    (hadd : st.pairs.add ⟨row, choice⟩ = .ok extended) :
    s.Ready (st.pair row choice extended) .call := by
  cases h.add_eq.symm.trans hadd
  obtain ⟨hstate, free, hnext, hfree⟩ := h
  exact hstate.push hnext (hfree choice List.mem_cons_self)

theorem rest (h : s.Ready st (.choices row (choice :: left))) (charged : Nat) :
    s.Ready (st.charge charged) (.choices row left) := by
  obtain ⟨hstate, free, hnext, hfree⟩ := h
  refine ⟨hstate, free, hnext, ?_⟩
  intro other hother
  exact hfree other (List.mem_cons_of_mem _ hother)

end Ready

namespace Calls

/-- An answer that there is no extension costs a dead end, unless no choice was left. -/
theorem keepsLimit (hs : s.Valid) (h : s.Calls stage st depth charged answer)
    (hready : s.Ready st stage) :
    KeepsLimit s.limit st.deadEnds charged answer ∧
      (answer = .ok none → (∃ row, stage = .choices row []) ∨ 0 < charged) := by
  induction h with
  | complete =>
      refine ⟨.inl rfl, ?_⟩
      intro hnone
      cases hnone
  | deadEnd _ _ hlimit =>
      refine ⟨.inr hlimit, ?_⟩
      intro _
      exact .inr Nat.one_pos
  | limit _ _ hlimit =>
      refine ⟨⟨rfl, (max_eq_right hlimit).symm⟩, ?_⟩
      intro hnone
      cases hnone
  | branch hnext hfree _ ih =>
      have hchoices := ih (hready.call hs hnext)
      refine ⟨hchoices.1, ?_⟩
      intro hnone
      rcases hchoices.2 hnone with ⟨_, hempty⟩ | hcharged
      · cases choices_ne_nil hs hnext hfree (Stage.choices.inj hempty).2
      · exact .inr hcharged
  | exhausted =>
      refine ⟨.inl rfl, ?_⟩
      intro _
      exact .inl ⟨_, rfl⟩
  | refused hadd => cases hready.add_eq.symm.trans hadd
  | @failed st _ _ _ charged _ charged' _ _ answer hadd _ _ ihCall ihLeft =>
      obtain ⟨hlimit, hcharged⟩ := ihCall (hready.pair hadd)
      obtain ⟨hlimit', _⟩ := ihLeft (hready.rest charged)
      have hpos : 0 < charged := by
        rcases hcharged rfl with ⟨_, hcall⟩ | hpos
        · cases hcall
        · exact hpos
      constructor
      · dsimp only [KeepsLimit, State.pair] at hlimit
        cases answer with
        | ok found =>
            dsimp only [KeepsLimit, State.charge] at hlimit' ⊢
            omega
        | error e =>
            dsimp only [KeepsLimit, State.charge] at hlimit' ⊢
            exact ⟨hlimit'.1, by omega⟩
      · intro _
        exact .inr (Nat.add_pos_left hpos _)
  | settled hadd _ hanswer ih =>
      refine ⟨(ih (hready.pair hadd)).1, ?_⟩
      intro hnone
      exact absurd hnone hanswer

end Calls

/-! ## Every call ends -/

theorem exists_calls_choices {row : Nat}
    (hcall : ∀ choice extended deadEnds, ∃ depth charged answer,
      s.Calls .call ⟨extended, st.matched.insert row, st.used.insert choice, deadEnds⟩
        depth charged answer)
    (left : List Nat) (deadEnds : Nat) :
    ∃ depth charged answer,
      s.Calls (.choices row left) { st with deadEnds := deadEnds } depth charged answer := by
  induction left generalizing deadEnds with
  | nil => exact ⟨0, 0, _, .exhausted⟩
  | cons choice left ih =>
      cases hadd : st.pairs.add ⟨row, choice⟩ with
      | error e => exact ⟨0, 0, _, .refused hadd⟩
      | ok extended =>
          obtain ⟨depth, charged, answer, hanswer⟩ := hcall choice extended deadEnds
          by_cases hnone : answer = .ok none
          · subst hnone
            obtain ⟨depth', charged', answer, hleft⟩ := ih (deadEnds + charged)
            exact ⟨_, _, _, .failed hadd hanswer hleft⟩
          · exact ⟨_, _, _, .settled hadd hanswer hnone⟩

theorem exists_calls (s : Search) (st : State) :
    ∃ depth charged answer, s.Calls .call st depth charged answer := by
  induction hrank : s.primary.unmatched st.matched using Nat.strong_induction_on
    generalizing st with
  | _ rank ih =>
      cases hnext : s.primary.nextRow st.matched st.used with
      | none => exact ⟨_, _, _, .complete hnext⟩
      | some chosen =>
          obtain ⟨row, free⟩ := chosen
          cases hfree : free.isEmpty with
          | true =>
              rcases Nat.lt_or_ge (st.deadEnds + 1) s.limit with hlimit | hlimit
              · exact ⟨_, _, _, .deadEnd hnext hfree hlimit⟩
              · exact ⟨_, _, _, .limit hnext hfree hlimit⟩
          | false =>
              obtain ⟨candidates, hrow, hunmatched, _⟩ := Candidates.nextRow_eq_some hnext
              have hlt := hrank ▸ Candidates.unmatched_insert_lt hrow hunmatched
              obtain ⟨_, _, _, hchoices⟩ := exists_calls_choices
                (fun _ _ _ => ih _ hlt _ rfl) (s.choices free) st.deadEnds
              exact ⟨_, _, _, .branch hnext hfree hchoices⟩

/-! ## The order of the choices -/

/-- Lower ranks come first, and of equal ranks the lower index. -/
def Precedes (rank : Nat → Nat) (i j : Nat) : Prop := rank i < rank j ∨ rank i = rank j ∧ i < j

instance (rank : Nat → Nat) : Std.Irrefl (Precedes rank) where
  irrefl := by simp [Precedes]

instance (rank : Nat → Nat) : Std.Antisymm (Precedes rank) where
  antisymm := by
    intro i j hij hji
    unfold Precedes at hij hji
    omega

/-- The choices are the free candidates, sorted by their ranks. -/
theorem choices_eq_sortBy {rank : Nat → Nat} (hrank : s.secondaryOrder.Pairwise (Precedes rank))
    {free : IndexSet} (hfree : ∀ j, free.contains j = true → j ∈ s.secondaryOrder) :
    s.choices free = sortBy (compareOn rank) free.toList := by
  have hfilter : (s.choices free).Pairwise (Precedes rank) := hrank.filter _
  have hsorted : (sortBy (compareOn rank) free.toList).Pairwise (Precedes rank) :=
    pairwise_sortBy_key rank (IndexSet.pairwise_lt_toList free)
  apply hfilter.eq_of_mem_iff hsorted
  intro j
  rw [choices, List.mem_filter, mem_sortBy, IndexSet.mem_toList]
  constructor
  · intro h
    exact h.2
  · intro h
    exact ⟨hfree j h, h⟩

/-! ## A call from a partial assignment -/

theorem unmatched_ofSets (sets : List IndexSet) (matched : IndexSet) :
    (Candidates.ofSets sets).unmatched matched =
      (List.range sets.length).countP fun i => !matched.contains i := by
  rw [← (Candidates.order_ofSets_perm sets).countP_eq, Candidates.order, List.countP_map]
  rfl

theorem valid_of_primary_eq {sets : List IndexSet} (hprimary : s.primary = .ofSets sets)
    (hcandidates : ∀ set ∈ sets, ∀ j, set.contains j = true → j ∈ s.secondaryOrder) : s.Valid where
  rows_nodup := by
    rw [hprimary]
    exact Candidates.nodup_order (Candidates.order_ofSets_perm sets)
  mem_secondaryOrder := by
    intro r hr
    rw [hprimary] at hr
    exact hcandidates r.2 (List.mem_of_getElem? (Candidates.mem_rows_ofSets.mp hr))

/-- A call from a partial assignment ends, and calls nest no deeper in it than there are unmatched
rows, and one more.  It finds a complete assignment that begins with the given pairs; or it shows,
at the cost of a dead end, that none contains them; or the dead ends reach the limit, which is the
only way in which it fails.  The given pairs are distinct in both their places, as `add` leaves
them. -/
theorem run_from_partialAssignment {sets : List IndexSet} {rank : Nat → Nat} (st : State)
    (hprimary : s.primary = .ofSets sets)
    (hcandidates : ∀ set ∈ sets, ∀ j, set.contains j = true → j ∈ s.secondaryOrder)
    (hrank : s.secondaryOrder.Pairwise (Precedes rank))
    (hstate : PartialAssignment s.primary st.pairs st.matched st.used) :
    (∃ depth charged answer, s.Calls .call st depth charged answer) ∧
      ∀ depth charged answer, s.Calls .call st depth charged answer →
        s.run st.pairs st.matched st.used st.deadEnds =
            answer.map (fun found => (found, st.deadEnds + charged)) ∧
          (∀ row free, s.primary.nextRow st.matched st.used = some (row, free) →
            s.choices free = sortBy (compareOn rank) free.toList) ∧
          depth ≤ ((List.range sets.length).countP fun i => !st.matched.contains i) + 1 ∧
          (∀ found, answer = .ok (some found) →
            st.pairs.toList <+: found.toList ∧ s.primary.Assigns found.toList) ∧
          (answer = .ok none →
            0 < charged ∧ ∀ all, s.primary.Assigns all → ¬st.pairs.toList ⊆ all) ∧
          (∀ e, answer = .error e ↔
            e = .tooManyPermutations s.limit ∧ 0 < charged ∧ s.limit ≤ st.deadEnds + charged) ∧
          ∀ e, answer = .error e → st.deadEnds + charged = max s.limit (st.deadEnds + 1) := by
  have hs := valid_of_primary_eq hprimary hcandidates
  refine ⟨exists_calls s st, ?_⟩
  intro depth charged answer hcalls
  have hrun : s.run st.pairs st.matched st.used st.deadEnds =
      answer.map fun found => (found, st.deadEnds + charged) := hcalls.perform_eq
  have hdepth : depth ≤ s.primary.unmatched st.matched + 1 := hcalls.depth_le
  rw [hprimary, unmatched_ofSets] at hdepth
  obtain ⟨hlimit, hcharged⟩ := hcalls.keepsLimit hs hstate
  have hanswer := run_answers hs hstate st.deadEnds
  rw [hrun] at hanswer
  refine ⟨hrun, ?_, hdepth, ?_, ?_, ?_, ?_⟩
  · intro row free hnext
    apply choices_eq_sortBy hrank
    intro j hj
    obtain ⟨candidates, hrow, _, rfl⟩ := Candidates.nextRow_eq_some hnext
    rw [IndexSet.contains_without, Bool.and_eq_true] at hj
    exact hs.mem_secondaryOrder _ hrow j hj.1
  · rintro found rfl
    exact ⟨hanswer.2, hanswer.1⟩
  · rintro rfl
    refine ⟨?_, hanswer⟩
    rcases hcharged rfl with ⟨_, hcall⟩ | hpos
    · cases hcall
    · exact hpos
  · intro e
    constructor
    · rintro rfl
      obtain ⟨he, hcount⟩ := hlimit
      exact ⟨he, by omega, by omega⟩
    · rintro ⟨rfl, hpos, hreached⟩
      cases answer with
      | error e => rw [hlimit.1]
      | ok found =>
          dsimp only [KeepsLimit] at hlimit
          omega
  · rintro e rfl
    exact hlimit.2

/-- Two of three rows have only the same candidate. -/
def pinched : Search where
  primary := .ofSets [.ofList [0, 1, 2], .ofList [2], .ofList [2]]
  secondaryOrder := [1, 0, 2]
  limit := 1

def pinchedRank : Nat → Nat
  | 0 => 1
  | 1 => 0
  | _ => 2

theorem not_assigns_pinched (all : List IndexPair) : ¬pinched.primary.Assigns all := by
  intro hall
  have hpartner : ∀ row, row = 1 ∨ row = 2 → ⟨row, 2⟩ ∈ all := by
    intro row hrow
    have hset : [IndexSet.ofList [0, 1, 2], .ofList [2], .ofList [2]][row]? =
        some (IndexSet.ofList [2]) := by
      rcases hrow with rfl | rfl <;> rfl
    obtain ⟨⟨i, j⟩, hp, rfl⟩ := hall.complete (row, _) (Candidates.mem_rows_ofSets.mpr hset)
    obtain ⟨candidates, hcandidates, hj⟩ := hall.admits _ hp
    cases hset.symm.trans (Candidates.mem_rows_ofSets.mp hcandidates)
    obtain rfl : j = 2 := by simpa [IndexSet.contains_ofList] using hj
    exact hp
  have hsame := hall.distinct.eq_of_actual_eq (hpartner 1 (.inl rfl)) (hpartner 2 (.inr rfl)) rfl
  cases hsame

theorem run_from_partialAssignment_pinched :
    (∀ set ∈ [IndexSet.ofList [0, 1, 2], .ofList [2], .ofList [2]],
        ∀ j, set.contains j = true → j ∈ pinched.secondaryOrder) ∧
      pinched.secondaryOrder.Pairwise (Precedes pinchedRank) ∧
      PartialAssignment pinched.primary .empty .empty .empty ∧
      pinched.run .empty .empty .empty 0 = .error (.tooManyPermutations 1) := by
  have hcandidates : ∀ set ∈ [IndexSet.ofList [0, 1, 2], .ofList [2], .ofList [2]],
      ∀ j, set.contains j = true → j ∈ pinched.secondaryOrder := by
    simp [IndexSet.contains_ofList, pinched]
  have hrank : pinched.secondaryOrder.Pairwise (Precedes pinchedRank) := by
    simp [pinched, Precedes, pinchedRank]
  have hstart := PartialAssignment.empty pinched.primary
  obtain ⟨⟨depth, charged, answer, hcalls⟩, hspec⟩ :=
    run_from_partialAssignment ⟨.empty, .empty, .empty, 0⟩ rfl hcandidates hrank hstart
  obtain ⟨hrun, _, _, hfound, hnone, herror, _⟩ := hspec depth charged answer hcalls
  refine ⟨hcandidates, hrank, hstart, ?_⟩
  cases answer with
  | error e =>
      obtain ⟨rfl, _⟩ := (herror e).mp rfl
      exact hrun
  | ok found =>
      cases found with
      | some found => exact absurd (hfound found rfl).2 (not_assigns_pinched _)
      | none =>
          have hpos := (hnone rfl).1
          cases (herror (.tooManyPermutations 1)).mpr ⟨rfl, hpos, Nat.le_add_left_of_le hpos⟩

end Search

end TableDiff
