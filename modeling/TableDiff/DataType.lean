/-!
# Types of columns and values

`any` is the wildcard: a column of that type accepts every value and takes the type of the first
one stored in it.  The four numeric types convert into each other when conversion is relaxed.
-/

namespace TableDiff

/-- Whether numeric values may cross the borders between types. -/
inductive ConversionMode where
  | strict
  | relaxed
deriving DecidableEq

namespace ConversionMode

def name : ConversionMode → String
  | strict => "strict"
  | relaxed => "relaxed"

def all : List ConversionMode := [strict, relaxed]

def ofName? (text : String) : Option ConversionMode := all.find? (·.name == text)

end ConversionMode

inductive DataType where
  | integer
  | long
  | float
  | boolean
  | string
  | date
  | dateTime
  | decimal
  | any
deriving DecidableEq

namespace DataType

def name : DataType → String
  | integer => "integer"
  | long => "long"
  | float => "float"
  | boolean => "boolean"
  | string => "string"
  | date => "date"
  | dateTime => "date_time"
  | decimal => "decimal"
  | any => "any"

/-- The types in their order; values of different types compare in this order. -/
def all : List DataType :=
  [integer, long, float, boolean, string, date, dateTime, decimal, any]

def ofName? (text : String) : Option DataType := all.find? (·.name == text)

def rank : DataType → Nat
  | integer => 0
  | long => 1
  | float => 2
  | boolean => 3
  | string => 4
  | date => 5
  | dateTime => 6
  | decimal => 7
  | any => 8

def isNumeric : DataType → Bool
  | integer | long | float | decimal => true
  | _ => false

/-- Whether values of type `source` may become values of type `target`. -/
def convertible (source target : DataType) : Bool :=
  source == target || source.isNumeric && target.isNumeric

/-- Whether a column of type `column` can hold a value of type `value`. -/
def accepts (column value : DataType) (mode : ConversionMode) : Bool :=
  column == any || column == value || mode == .relaxed && convertible value column

/-- Whether two columns can be compared with each other. -/
def compatible (a b : DataType) (mode : ConversionMode) : Bool :=
  a == b || a == any || b == any || mode == .relaxed && (convertible a b || convertible b a)

end DataType

end TableDiff
