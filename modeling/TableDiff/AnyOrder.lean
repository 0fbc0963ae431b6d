import TableDiff.Assignment
import TableDiff.Cells

/-!
# Pairing rows in any order

Expected rows without predicates are paired first: in canonical order, each takes the first actual
row that it matches.  The expected rows with predicates and the actual rows left over then form an
assignment problem, which is solved completely or contributes no pair at all.
-/

namespace TableDiff

/-- A row among those that are handed over: its place there, its index in its table, its cells. -/
structure Entry where
  position : Nat
  index : Nat
  row : Row

namespace Entry

/-- The rows of a table under their indices. -/
def ofTable (t : Table) : List Entry :=
  t.rows.zipIdx.map fun (row, index) => ⟨index, index, row⟩

/-- Rows under given table indices, in the given order. -/
def ofIndexed (rows : List (Nat × Row)) : List Entry :=
  rows.zipIdx.map fun ((index, row), position) => ⟨position, index, row⟩

def pair (expected actual : Entry) : IndexPair := ⟨expected.index, actual.index⟩

end Entry

/-- Entries sorted by their rendered cells, equal ones by position. -/
def canonicalOrder (entries : List Entry) : List Entry :=
  let keyed := entries.map fun e => (e.row.canonicalKey, e)
  (sortBy (compareLex (compareOn (·.1)) (compareOn (·.2.position))) keyed).map (·.2)

/-- The first entry that a row matches, and the other entries. -/
def takeMatch (m : CellMatcher) (expected : Row) :
    List Entry → Except MatchError (Option (Entry × List Entry))
  | [] => .ok none
  | a :: rest => do
    if ← m.rowsMatch expected a.row then
      return some (a, rest)
    else
      return (← takeMatch m expected rest).map fun (hit, others) => (hit, a :: others)

/-- Pairs each expected entry in turn with the first actual entry that is left and matches.  Gives
the pairs and the actual entries left over. -/
def pairGreedily (m : CellMatcher) :
    (expected available : List Entry) →
      Except MatchError (List (Entry × Entry) × List Entry)
  | [], available => .ok ([], available)
  | e :: expected, available => do
    match ← takeMatch m e.row available with
    | some (a, others) =>
      let (pairs, left) ← pairGreedily m expected others
      return ((e, a) :: pairs, left)
    | none => pairGreedily m expected available

/-- Pairs the expected rows without predicates.  The rows left over are sorted by position. -/
def pairLiteralRows (m : CellMatcher) (literal actual : List Entry) :
    Except MatchError (List (Entry × Entry) × List Entry) := do
  let (pairs, left) ← pairGreedily m (canonicalOrder literal) (canonicalOrder actual)
  return (pairs, sortBy (compareOn (·.position)) left)

/-- The places of the true entries. -/
def truePlaces (bs : List Bool) : List Nat := (bs.zipIdx.filter (·.1)).map (·.2)

/-- The assignment problem in both directions, from which expected row matches which actual row. -/
structure Compatibility where
  forward : Candidates
  backward : Candidates

def Compatibility.ofMatrix (width : Nat) (matrix : List (List Bool)) : Compatibility where
  forward := .ofSets (matrix.map fun line => .ofList (truePlaces line))
  backward := .ofSets ((List.range width).map fun j =>
    .ofList (truePlaces (matrix.map fun line => line.getD j false)))

/-- A complete assignment of expected to actual places.  The side with the most constrained row
leads the search, and the expected side if there is no difference. -/
def Compatibility.solve (c : Compatibility) (limit : Nat) :
    Except MatchError (Option (List IndexPair)) := do
  if c.forward.fewest ≤ c.backward.fewest then
    let found ← Search.solve ⟨c.forward, c.backward.order, limit⟩
    return found.map Pairing.toList
  else
    let found ← Search.solve ⟨c.backward, c.forward.order, limit⟩
    return found.map fun pairs => pairs.swapped.toList

/-- Pairs all expected rows with predicates with all the given actual rows, if that can be done.  No
search is made where the numbers differ or a row has no candidate. -/
def pairPredicateRows (m : CellMatcher) (limit : Nat) (predicate actual : List Entry) :
    Except MatchError (Option (List (Entry × Entry))) := do
  if predicate.isEmpty then
    return some []
  else if predicate.length ≠ actual.length then
    return none
  else
    let matrix ← predicate.mapM fun e => actual.mapM fun a => m.rowsMatch e.row a.row
    let problem := Compatibility.ofMatrix actual.length matrix
    if problem.forward.anyEmpty || problem.backward.anyEmpty then
      return none
    else
      let found ← problem.solve limit
      return found.map fun pairs => pairs.filterMap fun p => do
        return (← predicate[p.expected]?, ← actual[p.actual]?)

/-- Pairs expected with actual rows, in the indices of their tables. -/
def matchAnyOrder (m : CellMatcher) (limit : Nat) (expected actual : List Entry) :
    Except MatchError Pairing := do
  let (predicate, literal) := expected.partition (·.row.hasPredicate)
  let (literalPairs, left) ← pairLiteralRows m literal actual
  let predicatePairs ← pairPredicateRows m limit predicate left
  Pairing.ofList ((literalPairs ++ predicatePairs.getD []).map fun (e, a) => e.pair a)

end TableDiff
