import TableDiff.Value

/-!
# Tables

A table has typed columns, which all have names or all have none, and rows with one cell per
column.  Rows are only added, and every cell that is added has to fit its column:

* nulls and predicates fit every column;
* a literal fits a column of its type, and a wildcard column, which takes the type of the literal
  and keeps it from then on;
* in a relaxed table a number also fits a numeric column of another type, if it survives the
  conversion into that type.  It is stored converted.
-/

namespace TableDiff

structure Column where
  name? : Option String
  type : DataType
  isKey : Bool
deriving DecidableEq

structure Row where
  cells : List Value

structure Table where
  columns : List Column
  rows : List Row
  conversion : ConversionMode

namespace Column

/-- The name of the column at `index` in messages. -/
def label (c : Column) (index : Nat) : String := c.name?.getD ("#" ++ toString index)

/-- Puts a cell into the column at `index`: the column afterwards, and the cell as it is stored. -/
def store (c : Column) (index : Nat) (conversion : ConversionMode) :
    Value → Except TableError (Column × Value)
  | .literal l =>
    if c.type = .any then .ok ({ c with type := l.dataType }, .literal l)
    else if c.type = l.dataType then .ok (c, .literal l)
    else
      match if c.type.accepts l.dataType conversion then l.convert c.type else none with
      | some stored => .ok (c, .literal stored)
      | none => .error (.typeMismatch (c.label index) c.type l.dataType)
  | cell => .ok (c, cell)

end Column

namespace Row

def hasPredicate (r : Row) : Bool := r.cells.any Value.isPredicate

/-- The rendered cells; rows are put in order by the lexicographic order of these. -/
def canonicalKey (r : Row) : List String := r.cells.map Value.canonicalText

end Row

namespace Table

def ofColumns (columns : List Column) (conversion : ConversionMode) : Except TableError Table :=
  if columns.all (·.name?.isSome) || columns.all (·.name?.isNone) then
    .ok ⟨columns, [], conversion⟩
  else
    .error .mixedColumnNames

/-- Adds a row at the end.  The first cell that does not fit its column is the one reported. -/
def pushRow (t : Table) (cells : List Value) : Except TableError Table :=
  if cells = [] then .error .emptyRow
  else if cells.length ≠ t.columns.length then
    .error (.arityMismatch t.columns.length cells.length)
  else do
    let stored ← ((t.columns.zip cells).zipIdx).mapM fun ((column, cell), index) =>
      column.store index t.conversion cell
    return { t with columns := stored.map (·.1), rows := t.rows ++ [⟨stored.map (·.2)⟩] }

/-- A fault met while a table is built, with the row it is in; the columns are no row. -/
structure Fault where
  row? : Option Nat
  error : TableError
deriving DecidableEq

/-- Builds a table from its columns and then its rows in turn. -/
def ofRows (columns : List Column) (conversion : ConversionMode) (rows : List (List Value)) :
    Except Fault Table := do
  let empty ← (ofColumns columns conversion).mapError fun e => ⟨none, e⟩
  rows.zipIdx.foldlM
    (fun t (cells, index) => (t.pushRow cells).mapError fun e => ⟨some index, e⟩) empty

/-- Whether the columns have names; a table without columns has none. -/
def isNamed (t : Table) : Bool := t.columns.head?.any (·.name?.isSome)

/-- The indices of the key columns, ascending. -/
def keyIndices (t : Table) : List Nat :=
  (t.columns.zipIdx.filter (·.1.isKey)).map (·.2)

end Table

end TableDiff
