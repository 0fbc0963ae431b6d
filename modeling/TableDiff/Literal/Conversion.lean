import TableDiff.Literal
import TableDiff.Number.Rounding

/-!
# Conversion between numeric literals

A numeric literal may be converted into every numeric type; the conversion fails where the value
does not survive.  Under relaxed conversion two numeric literals of different types are equivalent
when their decimal forms are equal, and `canonical` is the form in which equivalent literals
become equal.
-/

namespace TableDiff.Literal

/-- The whole number that a numeric literal equals, if there is one. -/
def wholeNumber? : Literal → Option Int
  | integer n => some n.toInt
  | long n => some n.toInt
  | float x => x.integer?
  | decimal d => d.integer?
  | _ => none

def toInteger? (v : Literal) : Option Int32 := do
  let n ← v.wholeNumber?
  if Int32.minValue.toInt ≤ n ∧ n ≤ Int32.maxValue.toInt then some (Int32.ofInt n) else none

def toLong? (v : Literal) : Option Int64 := do
  let n ← v.wholeNumber?
  if Int64.minValue.toInt ≤ n ∧ n ≤ Int64.maxValue.toInt then some (Int64.ofInt n) else none

/-- A long is rounded to the nearest double, and refused if that is above `2 ^ 53`, from where on
doubles leave out whole numbers. -/
def toFloat? : Literal → Option Binary64
  | integer n => some (Binary64.ofInt n.toInt)
  | long n =>
    let x := Binary64.ofInt n.toInt
    if x.integer?.any fun m => m.natAbs ≤ 9_007_199_254_740_992 then some x else none
  | float x => some x
  | decimal d => some d.toBinary64
  | _ => none

def toDecimal? : Literal → Option Decimal
  | integer n => Decimal.ofInt? n.toInt
  | long n => Decimal.ofInt? n.toInt
  | float x => Decimal.ofBinary64? x
  | decimal d => some d
  | _ => none

/-- The literal as a value of another type, if its value survives.  The wildcard type takes every
literal as it is. -/
def convert (v : Literal) (type : DataType) : Option Literal :=
  if v.dataType = type ∨ type = .any then some v
  else match type with
    | .integer => v.toInteger?.map integer
    | .long => v.toLong?.map long
    | .float => v.toFloat?.map float
    | .decimal => v.toDecimal?.map decimal
    | _ => none

/-- Equality under a conversion mode. -/
def equivalent (a b : Literal) (mode : ConversionMode) : Bool :=
  a == b ||
    mode == .relaxed && a.dataType.isNumeric && b.dataType.isNumeric &&
      match a.toDecimal?, b.toDecimal? with
      | some x, some y => x.compare y == .eq
      | _, _ => false

/-- The form in which keys are compared: under relaxed conversion a number becomes its decimal form
without zeros at the end, where it has one. -/
def canonical (v : Literal) (mode : ConversionMode) : Literal :=
  if mode = .relaxed then
    match v.toDecimal? with
    | some d => decimal d.normalize
    | none => v
  else v

end TableDiff.Literal
