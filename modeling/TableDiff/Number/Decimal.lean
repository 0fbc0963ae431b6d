import TableDiff.Number.Positional

/-!
# Decimal numbers

A decimal number is a sign, a mantissa of at most 96 binary digits and a scale: the number of
decimal places, at most 28.  The scale belongs to the text of a number and not to its value, so
`1.50` and `1.5` are equal and print differently; likewise a zero may carry a sign.
-/

namespace TableDiff

open Powers

structure Decimal where
  negative : Bool
  mantissa : Nat
  scale : Nat
  mantissa_lt : mantissa < 2 ^ (96 : Nat)
  scale_le : scale ≤ 28
deriving DecidableEq

namespace Decimal

def ofParts? (negative : Bool) (mantissa scale : Nat) : Option Decimal :=
  if h : mantissa < 2 ^ (96 : Nat) ∧ scale ≤ 28 then
    some ⟨negative, mantissa, scale, h.1, h.2⟩
  else
    none

def zero : Decimal := ⟨false, 0, 0, by decide, by decide⟩

def ofInt? (n : Int) : Option Decimal := ofParts? (decide (n < 0)) n.natAbs 0

/-- The mantissa with the sign. -/
def signed (d : Decimal) : Int := if d.negative then -(d.mantissa : Int) else d.mantissa

def value (d : Decimal) : Rat := mkRat d.signed (10 ^ d.scale)

/-- The number counted in the finest step, `10 ^ -28`; always whole. -/
def units (d : Decimal) : Int := d.signed * 10 ^ (28 - d.scale)

/-- Numeric order: neither the scale nor the sign of a zero matters. -/
def compare (a b : Decimal) : Ordering := Ord.compare a.units b.units

instance : Ord Decimal := ⟨Decimal.compare⟩

/-- The whole number that a decimal equals, if there is one. -/
def integer? (d : Decimal) : Option Int :=
  if d.mantissa % 10 ^ d.scale = 0 then some (d.signed / 10 ^ d.scale) else none

/-- The same number without zeros at the end of its fraction; every zero becomes a plain `0`. -/
def normalize (d : Decimal) : Decimal :=
  if d.mantissa = 0 then zero
  else
    ⟨d.negative, (trimZeros d.mantissa d.scale).1, (trimZeros d.mantissa d.scale).2,
      Nat.lt_of_le_of_lt (trimZeros_digits_le _ _) d.mantissa_lt,
      Nat.le_trans (trimZeros_places_le _ _) d.scale_le⟩

/-- All places of the scale are written, and a sign also in front of a zero. -/
def text (d : Decimal) : String :=
  (if d.negative then "-" else "") ++ positional d.mantissa d.scale

/-- The number written by a run of decimal digits, if it is one and is not empty. -/
def digitsValue? (digits : List Char) : Option Nat :=
  if digits ≠ [] ∧ digits.all Char.isDigit then
    some (digits.foldl (fun n c => 10 * n + (c.toNat - '0'.toNat)) 0)
  else
    none

/-- Reads a sign, digits and perhaps a point with further digits.  A zero loses its sign. -/
def ofText? (text : String) : Option Decimal := do
  let (negative, digits) := match text.toList with
    | '-' :: rest => (true, rest)
    | '+' :: rest => (false, rest)
    | rest => (false, rest)
  let whole := digits.takeWhile (· != '.')
  let fraction := digits.drop (whole.length + 1)
  let mantissa ← digitsValue? (whole ++ fraction)
  ofParts? (negative && mantissa != 0) mantissa fraction.length

end Decimal

end TableDiff
