import TableDiff.Proofs.AnyOrder.Budget
import TableDiff.Proofs.Outcome.RowModes

/-!
# Tables with different numbers of rows

Tables with different numbers of rows never match.  Rows in order, and rows of one key, are counted
before they are compared.  Rows in any order are not: the rows with predicates are searched for
partners as soon as they are as many as the actual rows that are left over.  With fewer actual than
expected rows that happens when just the surplus of the expected rows has found no partner among
the rows without predicates, and then the search may meet its limit.
-/

namespace TableDiff

section

variable {m : CellMatcher} {limit : Nat} {expected actual : List Entry}

/-- The rows with predicates are only compared with equally many rows. -/
theorem length_eq_of_pairPredicateRows_eq_error {predicate : List Entry} {e : MatchError}
    (h : pairPredicateRows m limit predicate actual = .error e) :
    predicate.length = actual.length := by
  by_contra hlength
  by_cases hne : predicate = []
  · rw [hne, pairPredicateRows_nil] at h
    cases h
  · rw [pairPredicateRows_of_length_ne m limit hne hlength] at h
    cases h

/-- Where the limit stops the matching, the rows with predicates are as many as the actual rows
left over by the others. -/
theorem exists_left_of_matchAnyOrder_eq_error
    (h : matchAnyOrder m limit expected actual = .error (.tooManyPermutations limit)) :
    ∃ pairs left,
      pairLiteralRows m (expected.filter fun e => !e.row.hasPredicate) actual =
        .ok (pairs, left) ∧
      (expected.filter fun e => e.row.hasPredicate).length = left.length := by
  rw [matchAnyOrder_eq, bind_eq_error_iff] at h
  rcases h with hliteral | ⟨⟨pairs, left⟩, hliteral, h⟩
  · have hfalse := Conclusive.pairLiteralRows m _ _ _ hliteral
    cases hfalse
  · refine ⟨pairs, left, hliteral, ?_⟩
    rcases bind_eq_error_iff.mp h with hpredicate | ⟨found, _, hlist⟩
    · exact length_eq_of_pairPredicateRows_eq_error hpredicate
    · have hfalse := Conclusive.ofList _ _ hlist
      cases hfalse

/-- As many rows without predicates stay without a partner as there are surplus expected rows. -/
theorem length_add_of_matchAnyOrder_eq_error
    (h : matchAnyOrder m limit expected actual = .error (.tooManyPermutations limit)) :
    ∃ pairs left,
      pairLiteralRows m (expected.filter fun e => !e.row.hasPredicate) actual =
        .ok (pairs, left) ∧
      pairs.length + expected.length =
        (expected.filter fun e => !e.row.hasPredicate).length + actual.length ∧
      pairs.length ≤ (expected.filter fun e => !e.row.hasPredicate).length := by
  obtain ⟨pairs, left, hliteral, hleft⟩ := exists_left_of_matchAnyOrder_eq_error h
  obtain ⟨hpaired, hactual⟩ := pairLiteralRows_sound hliteral
  have hsplit := (filter_hasPredicate_perm expected).length_eq
  have hused := hactual.length_eq
  have hle := hpaired.left.length_le
  rw [List.length_append, List.length_map] at hused
  rw [List.length_append] at hsplit
  rw [List.length_map] at hle
  exact ⟨pairs, left, hliteral, by omega, hle⟩

end

namespace Comparison

variable {config : Config} {s t : Table}

/-- Rows that match are equally many. -/
theorem length_eq_of_isMatch {c : Comparison} (h : c.isMatch = .ok true) :
    c.expected.rows.length = c.actual.rows.length := by
  obtain ⟨o, ho, hmatched⟩ := bind_eq_ok_iff.mp h
  obtain ⟨pairs, _, hpairs⟩ := (outcome_sound ho).perfectMatching (Except.ok.inj hmatched)
  simpa using hpairs.length_eq

/-- Different numbers of rows are no match in any order.  The search only gives up on them if there
are fewer actual rows, and as many rows without predicates as there are too few find no partner. -/
theorem inAnyOrder_of_length_ne (hvalid : config.validate = .ok ())
    (hcolumns : TableDiff.columnsMatch config s.columns t.columns = .ok true)
    (ht : t.PredicateFree) (hcount : s.rows.length ≠ t.rows.length) :
    (inAnyOrder config s t).isMatch = .ok false ∨
      ((inAnyOrder config s t).isMatch = .error (.tooManyPermutations config.permutationLimit) ∧
        t.rows.length < s.rows.length ∧
        ∃ pairs left,
          pairLiteralRows (.ofColumns config s.columns t.columns)
            ((Entry.ofTable s).filter fun e => !e.row.hasPredicate) (Entry.ofTable t) =
              .ok (pairs, left) ∧
          pairs.length + (s.rows.length - t.rows.length) =
            ((Entry.ofTable s).filter fun e => !e.row.hasPredicate).length) := by
  have hmatch : (inAnyOrder config s t).isMatch ≠ .ok true := by
    intro h
    exact hcount (length_eq_of_isMatch h)
  rw [isMatch, outcome_inAnyOrder hvalid hcolumns] at hmatch ⊢
  generalize CellMatcher.ofColumns config s.columns t.columns = m at *
  rcases RowMatch.exists_anyOrder_ofTable_eq_ok m config.permutationLimit s ht with
    ⟨r, hr⟩ | hlimit
  · left
    rw [hr] at hmatch ⊢
    cases hmatched : r.matched with
    | false => exact congrArg Except.ok hmatched
    | true => exact absurd (congrArg Except.ok hmatched) hmatch
  · right
    refine ⟨by rw [hlimit]; rfl, ?_⟩
    have herror := bind_eq_error_iff.mp hlimit
    have hrows := herror.resolve_right (by rintro ⟨l, _, hpure⟩; cases hpure)
    obtain ⟨pairs, left, hliteral, hlength, hle⟩ := length_add_of_matchAnyOrder_eq_error hrows
    rw [Entry.length_ofTable, Entry.length_ofTable] at hlength
    exact ⟨by omega, pairs, left, hliteral, by omega⟩

end Comparison

/-! ## A search in spite of the count -/

namespace Table

/-- A nine, two rows that ask for a one, and one in which any value will do. -/
def nineOneOneAny : Table where
  columns := [⟨none, .integer, false⟩]
  rows := [⟨[.literal (.integer 9)]⟩,
    ⟨[.predicate ⟨"eq 1", fun v => v.any (· == .integer 1)⟩]⟩,
    ⟨[.predicate ⟨"eq 1", fun v => v.any (· == .integer 1)⟩]⟩,
    ⟨[.predicate ⟨"any", fun _ => true⟩]⟩]
  conversion := .strict

def oneTwoThree : Table where
  columns := [⟨none, .integer, false⟩]
  rows := [⟨[.literal (.integer 1)]⟩, ⟨[.literal (.integer 2)]⟩, ⟨[.literal (.integer 3)]⟩]
  conversion := .strict

theorem built_nineOneOneAny : nineOneOneAny.Built := built_of_reread rfl

theorem built_oneTwoThree : oneTwoThree.Built := built_of_reread rfl

theorem predicateFree_oneTwoThree : oneTwoThree.PredicateFree := by
  simp [PredicateFree, oneTwoThree, Row.hasPredicate, Value.isPredicate]

end Table

namespace Comparison

theorem inAnyOrder_of_length_ne_nineOneOneAny :
    (inAnyOrder { permutationLimit := 1 } .nineOneOneAny .oneTwoThree).isMatch = .ok false ∨
      ((inAnyOrder { permutationLimit := 1 } .nineOneOneAny .oneTwoThree).isMatch =
          .error (.tooManyPermutations 1) ∧ 3 < 4 ∧
        ∃ pairs left,
          pairLiteralRows (.positional .strict)
            ((Entry.ofTable .nineOneOneAny).filter fun e => !e.row.hasPredicate)
            (Entry.ofTable .oneTwoThree) = .ok (pairs, left) ∧
          pairs.length + (4 - 3) =
            ((Entry.ofTable .nineOneOneAny).filter fun e => !e.row.hasPredicate).length) :=
  inAnyOrder_of_length_ne rfl rfl Table.predicateFree_oneTwoThree (by decide)

/-- The nine finds no partner, so three rows with predicates are searched for partners among three
rows, and the first dead end exceeds the limit. -/
theorem inAnyOrder_gives_up_on_length_ne :
    Table.nineOneOneAny.Built ∧ Table.oneTwoThree.Built ∧ Table.oneTwoThree.PredicateFree ∧
      Table.nineOneOneAny.rows.length ≠ Table.oneTwoThree.rows.length ∧
      (inAnyOrder { permutationLimit := 1 } .nineOneOneAny .oneTwoThree).columnsMatch = .ok true ∧
      (inAnyOrder { permutationLimit := 1 } .nineOneOneAny .oneTwoThree).isMatch =
        .error (.tooManyPermutations 1) := by
  refine ⟨Table.built_nineOneOneAny, Table.built_oneTwoThree, Table.predicateFree_oneTwoThree,
    by decide, rfl, ?_⟩
  cbv

end Comparison

end TableDiff
