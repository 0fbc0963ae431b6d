import TableDiff.Calendar
import TableDiff.DataType
import TableDiff.Number.Decimal
import TableDiff.Number.Shortest

/-!
# Literals

A literal is a concrete value of one of the eight concrete types.  Literals are totally ordered: by
type first, then by value.  Two literals are equal, `a == b`, when the order does not tell them
apart; numbers may be equal and still differ in their text.
-/

namespace TableDiff

inductive Literal where
  | integer (n : Int32)
  | long (n : Int64)
  | float (x : Binary64)
  | boolean (b : Bool)
  | string (s : String)
  | date (d : Date)
  | dateTime (t : DateTime)
  | decimal (d : Decimal)

namespace Literal

def dataType : Literal → DataType
  | integer _ => .integer
  | long _ => .long
  | float _ => .float
  | boolean _ => .boolean
  | string _ => .string
  | date _ => .date
  | dateTime _ => .dateTime
  | decimal _ => .decimal

def compare : Literal → Literal → Ordering
  | integer a, integer b => Ord.compare a.toInt b.toInt
  | long a, long b => Ord.compare a.toInt b.toInt
  | float a, float b => Ord.compare a b
  | boolean a, boolean b => Ord.compare a.toNat b.toNat
  | string a, string b => Ord.compare a b
  | date a, date b => Ord.compare a b
  | dateTime a, dateTime b => Ord.compare a b
  | decimal a, decimal b => Ord.compare a b
  | a, b => Ord.compare a.dataType.rank b.dataType.rank

instance : Ord Literal := ⟨Literal.compare⟩

instance : BEq Literal := ⟨fun a b => a.compare b == .eq⟩

theorem beq_def (a b : Literal) : (a == b) = (a.compare b == .eq) := rfl

def text : Literal → String
  | integer n => toString n.toInt
  | long n => toString n.toInt
  | float x => x.text
  | boolean b => if b then "true" else "false"
  | string s => s
  | date d => d.text
  | dateTime t => t.text
  | decimal d => d.text

end Literal

end TableDiff
