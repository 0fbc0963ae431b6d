import TableDiff.Rows

/-!
# Comparing two tables

A comparison checks its configuration, then the columns, and only for columns that match the rows.
Its outcome is a verdict together with the lines of a diff; each of them has every row, and every
column, on exactly one line.
-/

namespace TableDiff

structure Outcome where
  matched : Bool
  rows : List DiffLine
  columns : List DiffLine
deriving DecidableEq

namespace Outcome

def unmatchedExpected (o : Outcome) : Nat := o.rows.countP (·.actual?.isNone)

def unmatchedActual (o : Outcome) : Nat := o.rows.countP (·.expected?.isNone)

end Outcome

/-- One table that is expected and one that is there. -/
structure Comparison where
  config : Config
  expected : Table
  actual : Table

namespace Comparison

/-- Whether the columns of the two tables match in the way that the row mode asks for. -/
def columnsMatch (c : Comparison) : Except MatchError Bool :=
  match c.config.rowMode with
  | .byKey => keyColumnsMatch c.config c.expected.columns c.actual.columns
  | _ => TableDiff.columnsMatch c.config c.expected.columns c.actual.columns

def cellMatcher (c : Comparison) : CellMatcher :=
  .ofColumns c.config c.expected.columns c.actual.columns

def outcome (c : Comparison) : Except MatchError Outcome := do
  c.config.validate
  let columns := pairColumns c.config c.expected.columns c.actual.columns
  if ← c.columnsMatch then
    let rows ← matchRows c.config c.cellMatcher c.expected c.actual
    return ⟨rows.matched, rows.lines, columns⟩
  else
    let rows := DiffLine.positional c.expected.rows.length c.actual.rows.length
    return ⟨false, rows, columns⟩

def isMatch (c : Comparison) : Except MatchError Bool := do return (← c.outcome).matched

/-- The lines of the diff with the rows themselves. -/
def alignedRows (c : Comparison) : Except MatchError (List (Option Row × Option Row)) := do
  return (← c.outcome).rows.map fun line =>
    (line.expected?.bind (c.expected.rows[·]?), line.actual?.bind (c.actual.rows[·]?))

end Comparison

/-- Compares two tables once. -/
def compareTables (config : Config) (expected actual : Table) : Except MatchError Bool :=
  Comparison.isMatch ⟨config, expected, actual⟩

end TableDiff
