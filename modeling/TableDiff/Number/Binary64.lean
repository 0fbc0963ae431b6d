import TableDiff.Number.Positional

/-!
# Doubles as exact numbers

A double is NaN, an infinity, or a significand of at most 53 binary digits times a power of two.
Everything here is integer and rational arithmetic: an operation takes the exact result and rounds
it once, to the nearest double, a half going to the even significand.

Two views make the type usable.  `value?` is the exact rational number of a finite double, and
`compare` is a total order in which the two zeros are equal and NaN is equal to itself and above
everything.
-/

namespace TableDiff

open Powers

/-- A finite double `± significand · 2 ^ exponent` in its only normal form. -/
structure Binary64.Finite where
  negative : Bool
  significand : Nat
  exponent : Int
  significand_lt : significand < 2 ^ (53 : Nat)
  exponent_ge : -1074 ≤ exponent
  exponent_le : exponent ≤ 971
  normal : 2 ^ (52 : Nat) ≤ significand ∨ exponent = -1074
deriving DecidableEq

inductive Binary64 where
  | nan
  | infinite (negative : Bool)
  | finite (number : Binary64.Finite)
deriving DecidableEq

namespace Binary64.Finite

/-- The number as a signed integer times `2 ^ exponent`. -/
def signed (x : Finite) : Int :=
  if x.negative then -(x.significand : Int) else x.significand

def value (x : Finite) : Rat := x.signed * (2 : Rat) ^ x.exponent

/-- The number counted in the least positive double, `2 ^ -1074`; always whole. -/
def units (x : Finite) : Int := x.signed * 2 ^ (x.exponent + 1074).toNat

end Binary64.Finite

/-- The integer nearest to `num / den`; a half goes to the even neighbour. -/
def divideHalfEven (num den : Nat) : Nat :=
  let quotient := num / den
  let rest := num % den
  if 2 * rest < den then quotient
  else if den < 2 * rest then quotient + 1
  else if quotient % 2 = 0 then quotient
  else quotient + 1

namespace Binary64

/-- The double `± significand · 2 ^ exponent`; one that is out of range counts as infinite. -/
def ofParts (negative : Bool) (significand : Nat) (exponent : Int) : Binary64 :=
  if h : (significand < 2 ^ (53 : Nat) ∧ -1074 ≤ exponent) ∧
      exponent ≤ 971 ∧ (2 ^ (52 : Nat) ≤ significand ∨ exponent = -1074) then
    .finite ⟨negative, significand, exponent, h.1.1, h.1.2, h.2.1, h.2.2⟩
  else
    .infinite negative

/-- The interchange format: a sign bit, eleven bits of exponent, fifty-two of fraction. -/
def ofBits (bits : UInt64) : Binary64 :=
  let negative := bits.toNat / 2 ^ (63 : Nat) == 1
  let field : Nat := bits.toNat / 2 ^ (52 : Nat) % 2 ^ (11 : Nat)
  let fraction := bits.toNat % 2 ^ (52 : Nat)
  if field = 2047 then
    if fraction = 0 then .infinite negative else .nan
  else if field = 0 then
    ofParts negative fraction (-1074)
  else
    ofParts negative (2 ^ (52 : Nat) + fraction) ((field : Int) - 1075)

/-- The power of two that gives `num / den` a significand of exactly 53 binary digits, or the least
power of the format where the quotient is too small for that. -/
def exponentFor (num den : Nat) : Int :=
  if num = 0 then -1074
  else
    let guess := (num.log2 : Int) - den.log2 - 52
    let exponent :=
      if num * 2 ^ (-guess).toNat < 2 ^ (52 : Nat) * den * 2 ^ guess.toNat then guess - 1 else guess
    max exponent (-1074)

/-- The double nearest to `± num / den`, for a positive `den`. -/
def ofQuotient (negative : Bool) (num den : Nat) : Binary64 :=
  let exponent := exponentFor num den
  let significand :=
    divideHalfEven (num * 2 ^ (-exponent).toNat) (den * 2 ^ exponent.toNat)
  if significand = 2 ^ (53 : Nat) then ofParts negative (2 ^ (52 : Nat)) (exponent + 1)
  else ofParts negative significand exponent

/-- The double nearest to a rational number; zero is the positive zero. -/
def ofRat (x : Rat) : Binary64 := ofQuotient (decide (x < 0)) x.num.natAbs x.den

def ofInt (n : Int) : Binary64 := ofRat n

def value? : Binary64 → Option Rat
  | finite x => some x.value
  | _ => none

def neg : Binary64 → Binary64
  | nan => nan
  | infinite negative => infinite !negative
  | finite x => finite { x with negative := !x.negative }

/-- Where a double stands beside the finite ones, which are all on level zero. -/
def level : Binary64 → Int
  | infinite true => -1
  | finite _ => 0
  | infinite false => 1
  | nan => 2

/-- The units of a finite double; zero on every other level. -/
def units : Binary64 → Int
  | finite x => x.units
  | _ => 0

/-- The numeric order: the two zeros are equal, NaN equals NaN and is above everything. -/
def compare (x y : Binary64) : Ordering :=
  (Ord.compare x.level y.level).then (Ord.compare x.units y.units)

instance : Ord Binary64 := ⟨Binary64.compare⟩

/-- The whole number that a finite double equals, if there is one. -/
def integer? (x : Binary64) : Option Int := do
  let v ← x.value?
  if v.den = 1 then some v.num else none

end Binary64

end TableDiff
