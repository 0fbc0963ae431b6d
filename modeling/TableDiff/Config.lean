import TableDiff.Error
import TableDiff.Text.LetterCase

/-!
# Configuration of a comparison

A setting gives one field of a configuration a value: modes are written as their names, the
permutation limit as a number.
-/

namespace TableDiff

/-- How expected columns are lined up with actual columns. -/
inductive ColumnMode where
  | positional
  | byName
deriving DecidableEq

/-- How expected rows are lined up with actual rows: in the same order, in any order, or in any
order among the rows that agree in their key columns. -/
inductive RowMode where
  | ordered
  | anyOrder
  | byKey
deriving DecidableEq

/-- Whether column names that differ only in letter case are the same name. -/
inductive NameCase where
  | sensitive
  | insensitive
deriving DecidableEq

namespace ColumnMode

def name : ColumnMode → String
  | positional => "positional"
  | byName => "by_name"

def all : List ColumnMode := [positional, byName]

def ofName? (text : String) : Option ColumnMode := all.find? (·.name == text)

end ColumnMode

namespace RowMode

def name : RowMode → String
  | ordered => "ordered"
  | anyOrder => "any_order"
  | byKey => "by_key"

def all : List RowMode := [ordered, anyOrder, byKey]

def ofName? (text : String) : Option RowMode := all.find? (·.name == text)

end RowMode

namespace NameCase

def name : NameCase → String
  | sensitive => "sensitive"
  | insensitive => "insensitive"

def all : List NameCase := [sensitive, insensitive]

def ofName? (text : String) : Option NameCase := all.find? (·.name == text)

/-- The form in which column names are compared. -/
def normalize : NameCase → String → String
  | sensitive, text => text
  | insensitive, text => lowerCase text

end NameCase

structure Config where
  columnMode : ColumnMode := .positional
  rowMode : RowMode := .ordered
  /-- The number of dead ends at which the search for a pairing is given up. -/
  permutationLimit : Nat := 10000
  conversion : ConversionMode := .strict
  nameCase : NameCase := .sensitive
deriving DecidableEq

/-- A search that may meet no dead end at all is refused. -/
def Config.validate (c : Config) : Except MatchError Unit :=
  if c.permutationLimit = 0 then .error .configLimit else .ok ()

/-! ## Settings -/

inductive Setting where
  | text (s : String)
  | number (n : Int)
deriving DecidableEq

namespace Config

/-- The configuration with one field set; a field, mode or number that does not exist is refused. -/
def set? (c : Config) : String → Setting → Option Config
  | "column_mode", .text s => (ColumnMode.ofName? s).map fun mode => { c with columnMode := mode }
  | "row_mode", .text s => (RowMode.ofName? s).map fun mode => { c with rowMode := mode }
  | "permutation_limit", .number n =>
    if 0 ≤ n then some { c with permutationLimit := n.toNat } else none
  | "conversion", .text s => (ConversionMode.ofName? s).map fun mode => { c with conversion := mode }
  | "name_case", .text s => (NameCase.ofName? s).map fun mode => { c with nameCase := mode }
  | _, _ => none

/-- The default configuration changed by settings, each for a field of its own. -/
def ofSettings? (settings : List (String × Setting)) : Option Config :=
  if (settings.map (·.1)).Nodup then
    settings.foldlM (fun c (field, setting) => c.set? field setting) {}
  else
    none

end Config

end TableDiff
