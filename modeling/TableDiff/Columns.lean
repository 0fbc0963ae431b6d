import TableDiff.Config
import TableDiff.DiffLine
import TableDiff.Sorting
import TableDiff.Table

/-!
# Comparing columns

Two tables can be compared when their columns match: as lists, position by position, or as maps from
names to types.  Matching by name needs names that are there and differ from each other, and reports
a table, the expected one first, that does not have them.
-/

namespace TableDiff

namespace Column

/-- The name in the form in which names are compared; empty where there is none. -/
def normalizedName (c : Column) (nameCase : NameCase) : String :=
  nameCase.normalize (c.name?.getD "")

end Column

/-- The columns that identify a row. -/
def keyColumns (columns : List Column) : List Column := columns.filter (·.isKey)

/-- The repeated entries of a sorted list, once each. -/
def repeated (names : List String) : List String :=
  (((names.zip names.tail).filter fun p => p.1 == p.2).map (·.1)).eraseReps

/-- Names and types sorted by name; refuses columns without a name and names that repeat. -/
def columnsByName (config : Config) (side : Side) (columns : List Column) :
    Except MatchError (List (String × DataType)) := do
  let named ← columns.mapM fun c =>
    match c.name? with
    | some name => .ok (config.nameCase.normalize name, c.type)
    | none => .error (.unnamedColumns side)
  let sorted := sortBy (compareOn (·.1)) named
  match repeated (sorted.map (·.1)) with
  | [] => return sorted
  | names => throw (.duplicateColumnNames side names)

def columnsMatchByPosition (config : Config) (expected actual : List Column) : Bool :=
  expected.length == actual.length &&
    (expected.zip actual).all fun (e, a) => e.type.compatible a.type config.conversion

def columnsMatchByName (config : Config) (expected actual : List Column) :
    Except MatchError Bool := do
  let expected ← columnsByName config .expected expected
  let actual ← columnsByName config .actual actual
  return expected.length == actual.length &&
    (expected.zip actual).all fun (e, a) =>
      e.1 == a.1 && e.2.compatible a.2 config.conversion

/-- Whether two lists of columns have the same shape. -/
def columnsMatch (config : Config) (expected actual : List Column) : Except MatchError Bool :=
  match config.columnMode with
  | .positional => .ok (columnsMatchByPosition config expected actual)
  | .byName => columnsMatchByName config expected actual

/-- Looks for faults of names where columns are matched by name, the expected ones first. -/
def checkNames (config : Config) (expected actual : List Column) : Except MatchError Unit :=
  match config.columnMode with
  | .positional => .ok ()
  | .byName => do
    let _ ← columnsByName config .expected expected
    let _ ← columnsByName config .actual actual
    return ()

/-- Whether the key columns have the same shape among themselves, and then all columns.  Faults of
names are looked for in all columns first. -/
def keyColumnsMatch (config : Config) (expected actual : List Column) :
    Except MatchError Bool := do
  checkNames config expected actual
  if ← columnsMatch config (keyColumns expected) (keyColumns actual) then
    columnsMatch config expected actual
  else
    return false

/-- Gives each expected column the first actual column of its name that is still free. -/
def pairNames : List (String × Nat) → List (String × Nat) → List DiffLine
  | [], free => free.map fun a => DiffLine.actualOnly a.2
  | (name, i) :: expected, free =>
    match free.find? (·.1 == name) with
    | some (_, j) => DiffLine.both i j :: pairNames expected (free.eraseP (·.1 == name))
    | none => DiffLine.expectedOnly i :: pairNames expected free

/-- The lines that show how columns are lined up.  Columns without names are lined up by position
in either mode. -/
def pairColumns (config : Config) (expected actual : List Column) : List DiffLine :=
  if config.columnMode = .byName ∧ (expected ++ actual).all (·.name?.isSome) then
    pairNames ((expected.map (·.normalizedName config.nameCase)).zipIdx)
      ((actual.map (·.normalizedName config.nameCase)).zipIdx)
  else
    DiffLine.positional expected.length actual.length

end TableDiff
