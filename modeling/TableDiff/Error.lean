import TableDiff.DataType

/-!
# Faults

What can be wrong with a table or a cell, and why a comparison of two tables ends without an answer.
-/

namespace TableDiff

/-! ## Tables and cells -/

inductive TableError where
  /-- A row without values. -/
  | emptyRow
  /-- A row whose length is not the number of columns. -/
  | arityMismatch (columns values : Nat)
  /-- Some columns have names and others have none. -/
  | mixedColumnNames
  /-- A value that its column cannot hold. -/
  | typeMismatch (column : String) (expected actual : DataType)
  /-- A predicate where a concrete value is needed. -/
  | predicateEvaluation (description : String)
deriving DecidableEq

def TableError.message : TableError → String
  | emptyRow => "row has no values"
  | arityMismatch columns values =>
    s!"row has {values} value(s), table has {columns} column(s)"
  | mixedColumnNames => "columns must be either all named or all unnamed"
  | typeMismatch column expected actual =>
    s!"column {column}: expected type {expected.name}, got {actual.name}"
  | predicateEvaluation description =>
    s!"predicate '{description}' cannot be evaluated to a value"

/-! ## Comparisons -/

/-- The two tables of a comparison. -/
inductive Side where
  | expected
  | actual
deriving DecidableEq

def Side.name : Side → String
  | expected => "expected"
  | actual => "actual"

inductive MatchError where
  | table (e : TableError)
  /-- Two columns of one table have the same name; `names` are the repeated ones. -/
  | duplicateColumnNames (side : Side) (names : List String)
  /-- Columns are to be paired by name and one has none. -/
  | unnamedColumns (side : Side)
  /-- A row is to be paired a second time. -/
  | indexReused (side : Side) (index : Nat)
  /-- The search for a pairing met its limit of dead ends. -/
  | tooManyPermutations (limit : Nat)
  /-- A configuration text that cannot be read. -/
  | configSyntax
  /-- A configuration without room for a single dead end. -/
  | configLimit
  /-- A configuration file that is missing or is no text. -/
  | configUnreadable
deriving DecidableEq

namespace MatchError

/-- Whether the comparison was given up for its cost; a larger limit may settle it. -/
def isTooManyPermutations : MatchError → Bool
  | tooManyPermutations _ => true
  | _ => false

def message : MatchError → String
  | table e => e.message
  | duplicateColumnNames side names =>
    side.name ++ " table has duplicate column names: " ++ ", ".intercalate names
  | unnamedColumns side =>
    side.name ++ " table has unnamed columns; by-name matching needs names"
  | indexReused side index => s!"{side.name} row {index} is already paired"
  | tooManyPermutations limit =>
    s!"too many permutations: gave up after {limit} dead ends; " ++
      "raise permutation_limit or simplify the expected rows"
  | configSyntax => "config parse error: not a valid configuration"
  | configLimit => "config validation error: permutation_limit must be positive"
  | configUnreadable => "IO error: the configuration cannot be read"

/-- A fault of a table is a fault of the comparison that meets it. -/
def lift {α : Type} : Except TableError α → Except MatchError α
  | .ok a => .ok a
  | .error e => .error (table e)

end MatchError

end TableDiff
