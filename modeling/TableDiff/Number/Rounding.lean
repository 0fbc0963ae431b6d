import TableDiff.Number.Binary64
import TableDiff.Number.Decimal

/-!
# Between doubles and decimal numbers

Neither format holds all numbers of the other, so both directions round.

From a double `b · 2 ^ e` the power of two is traded for a power of ten, one factor of five at a
time, in a mantissa of 96 binary digits.  The result is then cut to 28 places and, while it still
has places, to a mantissa below `2 ^ 52`, about as many digits as a double can tell apart.

From a decimal number the whole part and the fraction are turned into doubles of their own; their
sum is corrected by rounding it, in double arithmetic, at the scale of the decimal number.
-/

namespace TableDiff

open Powers

namespace Decimal

/-- Multiplies `b · 10 ^ e` by five `n` times.  A factor goes into the power of ten where `b` is
even, into `b` where that stays within 96 digits, and else `b` loses its last binary digit. -/
def timesFive : (n b : Nat) → (e : Int) → Nat × Int
  | 0, b, e => (b, e)
  | n + 1, b, e =>
    if b % 2 = 0 then timesFive n (b / 2) (e + 1)
    else if b * 5 < 2 ^ (96 : Nat) then timesFive n (b * 5) e
    else timesFive n (b / 2) (e + 1)

/-- Divides `b · 10 ^ e` by five `n` times.  While `b` has room to be doubled the division is exact;
after that it is given up if the power of ten is still large beside the divisions to come. -/
def overFive : (n b : Nat) → (e : Int) → Option (Nat × Int)
  | 0, b, e => some (b, e)
  | n + 1, b, e =>
    if b < 2 ^ (95 : Nat) then overFive n (b * 2) (e - 1)
    else if (n : Int) + 1 < e * 2 then none
    else overFive n (b / 5) e

/-- Multiplies by ten `n` times, if 96 binary digits suffice. -/
def timesTen : (n b : Nat) → Option Nat
  | 0, b => some b
  | n + 1, b => if b * 10 < 2 ^ (96 : Nat) then timesTen n (b * 10) else none

/-- Drops the last decimal digit; five and above count as one more in the next. -/
def dropDigit (b : Nat) : Nat := if 5 ≤ b % 10 then b / 10 + 1 else b / 10

/-- Cuts `b / 10 ^ (28 + excess)` to 28 places.  A number that has no digit left is a plain zero. -/
def cutPlaces : (excess b : Nat) → Nat × Nat
  | 0, b => (b, 28)
  | excess + 1, b => if b / 10 = 0 then (0, 0) else cutPlaces excess (dropDigit b)

/-- Drops places while the mantissa has more than 52 binary digits. -/
def cutMantissa : (places b : Nat) → Nat × Nat
  | 0, b => (b, 0)
  | places + 1, b =>
    if 2 ^ (52 : Nat) ≤ b then cutMantissa places (dropDigit b) else (b, places + 1)

/-- The mantissa and scale that stand for `significand · 2 ^ exponent`. -/
def ofPower? (significand : Nat) (exponent : Int) : Option (Nat × Nat) := do
  let (b, e) ←
    if exponent < 0 then pure (timesFive (-exponent).toNat significand exponent)
    else overFive exponent.toNat significand exponent
  let b ← timesTen e.toNat b
  let places := (-e).toNat
  let (b, places) := if 28 < places then cutPlaces (places - 28) b else (b, places)
  let (b, places) := cutMantissa places b
  pure (trimZeros b places)

/-- The decimal number for a double.  A zero keeps its sign; NaN, the infinities and numbers beyond
96 binary digits have none. -/
def ofBinary64? : Binary64 → Option Decimal
  | .finite x =>
    if x.significand = 0 then ofParts? x.negative 0 0
    else do
      let (mantissa, scale) ← ofPower? x.significand x.exponent
      ofParts? x.negative mantissa scale
  | _ => none

/-- The value of the double nearest to `x`; zero beyond the range of doubles. -/
def nearest (x : Rat) : Rat := (Binary64.ofRat x).value?.getD 0

/-- `a ^ n · acc` by repeated squaring, every product rounded to a double.  Stops after `steps`
binary digits of `n`. -/
def powerNearest : (steps : Nat) → (acc a : Rat) → (n : Nat) → Rat
  | 0, acc, _, _ => acc
  | steps + 1, acc, a, n =>
    let acc := if n % 2 = 1 then nearest (acc * a) else acc
    if n / 2 = 0 then acc else powerNearest steps acc (nearest (a * a)) (n / 2)

/-- The whole number nearest to a number that is not negative; a half goes up. -/
def roundHalfUp (x : Rat) : Rat := (x + 1 / 2).floor

/-- The double for a decimal number that is not negative. -/
def magnitudeToBinary64 (mantissa scale : Nat) : Binary64 :=
  let power : Nat := 10 ^ scale
  let whole := nearest (mantissa / power : Nat)
  let fraction := nearest (nearest (mantissa % power : Nat) / nearest power)
  if fraction = 0 then Binary64.ofRat whole
  else
    let step := powerNearest 5 1 10 scale
    Binary64.ofRat (roundHalfUp (nearest (nearest (whole + fraction) * step)) / step)

def toBinary64 (d : Decimal) : Binary64 :=
  if d.scale = 0 then Binary64.ofInt d.signed
  else
    let magnitude := magnitudeToBinary64 d.mantissa d.scale
    if d.negative then magnitude.neg else magnitude

end Decimal

end TableDiff
