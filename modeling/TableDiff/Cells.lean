import TableDiff.Columns

/-!
# Comparing the cells of two rows

Rows are compared cell by cell, from the first expected cell on, until one does not match or cannot
be matched.  Which actual cell belongs to an expected one is decided by its position or by the name
of its column.
-/

namespace TableDiff

/-- Where the partner of an expected cell is found. -/
inductive Projection where
  | positional
  /-- The actual column of each expected one; an expected column without a partner has none. -/
  | byName (targets : List (Option Nat))
deriving DecidableEq

structure CellMatcher where
  projection : Projection
  conversion : ConversionMode
deriving DecidableEq

/-- Matches expected cells with their partners in turn; a partner that is missing does not match. -/
def allCellsMatch (conversion : ConversionMode) :
    List (Value × Option Value) → Except TableError Bool
  | [] => .ok true
  | (_, none) :: _ => .ok false
  | (e, some a) :: rest => do
    if ← e.matchesCell a conversion then allCellsMatch conversion rest else return false

namespace CellMatcher

def positional (conversion : ConversionMode) : CellMatcher := ⟨.positional, conversion⟩

/-- An expected column belongs to the first actual column of the same name. -/
def byName (nameCase : NameCase) (conversion : ConversionMode) (expected actual : List Column) :
    CellMatcher :=
  let names := actual.map fun c => c.name?.map nameCase.normalize
  ⟨.byName (expected.map fun c =>
    c.name?.bind fun name => names.findIdx? (· == some (nameCase.normalize name))), conversion⟩

def ofColumns (config : Config) (expected actual : List Column) : CellMatcher :=
  match config.columnMode with
  | .positional => positional config.conversion
  | .byName => byName config.nameCase config.conversion expected actual

/-- The actual column compared with the expected column at `index`. -/
def actualIndex? (m : CellMatcher) (index : Nat) : Option Nat :=
  match m.projection with
  | .positional => some index
  | .byName targets => (targets[index]?).join

def cellsMatch (m : CellMatcher) (expected actual : List Value) : Except TableError Bool :=
  match m.projection with
  | .positional =>
    if expected.length = actual.length then
      allCellsMatch m.conversion (expected.zip (actual.map some))
    else
      .ok false
  | .byName targets =>
    allCellsMatch m.conversion ((expected.zip targets).filterMap fun (e, target) =>
      target.map fun j => (e, actual[j]?))

def rowsMatch (m : CellMatcher) (expected actual : Row) : Except MatchError Bool :=
  MatchError.lift (m.cellsMatch expected.cells actual.cells)

end CellMatcher

end TableDiff
