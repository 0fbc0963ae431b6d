import TableDiff.AnyOrder

/-!
# Comparing rows

The rows of two tables are lined up in one of three ways: in their order, in any order, or in any
order within each group of rows that agree in the key columns.  Rows match when every row has a
partner and all partners match.
-/

namespace TableDiff

/-- Whether rows match, and the lines that show how they are lined up. -/
structure RowMatch where
  matched : Bool
  lines : List DiffLine
deriving DecidableEq

/-- Whether the rows of two lists match one by one. -/
def allRowsMatch (m : CellMatcher) : List (Row × Row) → Except MatchError Bool
  | [] => .ok true
  | (e, a) :: rest => do
    if ← m.rowsMatch e a then allRowsMatch m rest else return false

namespace RowMatch

def ordered (m : CellMatcher) (expected actual : Table) : Except MatchError RowMatch := do
  let lines := DiffLine.positional expected.rows.length actual.rows.length
  if expected.rows.length = actual.rows.length then
    return ⟨← allRowsMatch m (expected.rows.zip actual.rows), lines⟩
  else
    return ⟨false, lines⟩

def anyOrder (m : CellMatcher) (limit : Nat) (expected actual : List Entry) :
    Except MatchError RowMatch := do
  let pairing ← matchAnyOrder m limit expected actual
  let lines := pairing.aligned (expected.map (·.index)) (actual.map (·.index))
  return ⟨lines.all DiffLine.isComplete, lines⟩

/-- The evaluated key cells of a row, in the form in which equivalent ones are equal. -/
abbrev Key := List (Option Literal)

/-- The key of a row; a predicate in a key cell has no value. -/
def rowKey (conversion : ConversionMode) (columns : List Nat) (row : Row) :
    Except TableError Key :=
  columns.mapM fun c =>
    match row.cells[c]? with
    | some cell => do return (← cell.evaluate).map (·.canonical conversion)
    | none => .ok none

/-- The key columns of a table.  Where columns go by name so do keys, so that both tables build
them in the same order. -/
def keyOrder (config : Config) (t : Table) : List Nat :=
  match config.columnMode with
  | .positional => t.keyIndices
  | .byName =>
    let named := t.keyIndices.map fun i =>
      ((t.columns[i]?.map (·.normalizedName config.nameCase)).getD "", i)
    (sortBy (compareOn (·.1)) named).map (·.2)

/-- The rows of a table with their keys. -/
def keyedEntries (config : Config) (m : CellMatcher) (t : Table) :
    Except MatchError (List (Key × Entry)) :=
  let columns := keyOrder config t
  (Entry.ofTable t).mapM fun e => do
    return (← MatchError.lift (rowKey m.conversion columns e.row), e)

/-- The rows of both tables that have one key. -/
structure KeyGroup where
  expected : List Entry
  actual : List Entry

namespace KeyGroup

def pushExpected (g : KeyGroup) (e : Entry) : KeyGroup := { g with expected := g.expected ++ [e] }

def pushActual (g : KeyGroup) (a : Entry) : KeyGroup := { g with actual := g.actual ++ [a] }

end KeyGroup

/-- Groups under way.  A key that has been met has a slot, the place of its group. -/
structure Grouping where
  slots : List (Key × Nat)
  groups : List KeyGroup

namespace Grouping

def empty : Grouping := ⟨[], []⟩

def slot? (g : Grouping) (key : Key) : Option Nat :=
  (g.slots.find? fun entry => entry.1 == key).map (·.2)

/-- The slot of a key; a new key gets the next one, with a group that has no rows yet. -/
def slotFor (g : Grouping) (key : Key) : Nat × Grouping :=
  match g.slot? key with
  | some slot => (slot, g)
  | none => (g.groups.length, ⟨(key, g.groups.length) :: g.slots, g.groups ++ [⟨[], []⟩]⟩)

/-- Puts a row into the group of its key. -/
def add (push : KeyGroup → Entry → KeyGroup) (g : Grouping) (keyed : Key × Entry) : Grouping :=
  let (slot, g) := g.slotFor keyed.1
  { g with groups := g.groups.modify slot fun group => push group keyed.2 }

end Grouping

/-- Rows grouped by key, in the order in which keys first appear, the expected rows before the
actual ones. -/
def keyGroups (expected actual : List (Key × Entry)) : List KeyGroup :=
  let g := expected.foldl (Grouping.add KeyGroup.pushExpected) .empty
  (actual.foldl (Grouping.add KeyGroup.pushActual) g).groups

/-- Matches the rows of one key.  Groups of different sizes do not match and are lined up by
position; a single row on each side needs no search. -/
def ofGroup (m : CellMatcher) (limit : Nat) (g : KeyGroup) : Except MatchError RowMatch :=
  match g.expected, g.actual with
  | [e], [a] => do return ⟨← m.rowsMatch e.row a.row, [DiffLine.both e.index a.index]⟩
  | expected, actual =>
    if expected.length = actual.length then anyOrder m limit expected actual
    else .ok ⟨false, DiffLine.zip (expected.map (·.index)) (actual.map (·.index))⟩

/-- Groups match together when each of them does; their lines follow each other. -/
def append (a b : RowMatch) : RowMatch := ⟨a.matched && b.matched, a.lines ++ b.lines⟩

def byKey (config : Config) (m : CellMatcher) (expected actual : Table) :
    Except MatchError RowMatch := do
  let expected ← keyedEntries config m expected
  let actual ← keyedEntries config m actual
  let results ← (keyGroups expected actual).mapM (ofGroup m config.permutationLimit)
  return results.foldl append ⟨true, []⟩

end RowMatch

/-- Lines up the rows of two tables whose columns match. -/
def matchRows (config : Config) (m : CellMatcher) (expected actual : Table) :
    Except MatchError RowMatch :=
  match config.rowMode with
  | .ordered => RowMatch.ordered m expected actual
  | .anyOrder =>
    RowMatch.anyOrder m config.permutationLimit (Entry.ofTable expected) (Entry.ofTable actual)
  | .byKey => RowMatch.byKey config m expected actual

end TableDiff
