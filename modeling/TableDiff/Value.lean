import TableDiff.Error
import TableDiff.Literal.Conversion

/-!
# Cell values

A cell is null, a literal, or a predicate.  A predicate stands in an expected table for all values
that pass its test; it is no value itself, so it cannot stand on the actual side of a match.
-/

namespace TableDiff

/-- A described test.  It is given `none` where the tested cell is null. -/
structure Predicate where
  description : String
  test : Option Literal → Bool

inductive Value where
  | null
  | literal (l : Literal)
  | predicate (p : Predicate)

namespace Value

def isNull : Value → Bool
  | null => true
  | _ => false

def isPredicate : Value → Bool
  | predicate _ => true
  | _ => false

/-- The type of a concrete value; nulls and predicates have none. -/
def dataType? : Value → Option DataType
  | literal l => some l.dataType
  | _ => none

/-- The concrete value of a cell, `none` for null. -/
def evaluate : Value → Except TableError (Option Literal)
  | null => .ok none
  | literal l => .ok (some l)
  | predicate p => .error (.predicateEvaluation p.description)

/-- Whether an expected cell admits a concrete value. -/
def admits (expected : Value) (actual : Option Literal) (mode : ConversionMode) : Bool :=
  match expected with
  | null => actual.isNone
  | literal l => actual.any fun a => l.equivalent a mode
  | predicate p => p.test actual

/-- Matches an expected cell against an actual one. -/
def matchesCell (expected actual : Value) (mode : ConversionMode) : Except TableError Bool := do
  let concrete ← actual.evaluate
  return expected.admits concrete mode

/-- The text by which rows are put in order. -/
def canonicalText : Value → String
  | null => "null"
  | literal l => l.text
  | predicate p => p.description

/-- The text shown for a cell. -/
def text : Value → String
  | null => "null"
  | literal l => l.text
  | predicate p => "<" ++ p.description ++ ">"

end Value

end TableDiff
