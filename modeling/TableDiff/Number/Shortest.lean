import TableDiff.Number.Binary64

/-!
# Shortest decimal text of a double

A finite double stands for an interval of real numbers, those that round to it.  Its text is the
decimal number in that interval with the fewest digits, and of those the one nearest to the double;
of two equally near ones the larger is taken.  The text is positional whatever the magnitude, and a
whole number has no decimal point.
-/

namespace TableDiff

open Powers

/-- The decimal number `digits · 10 ^ exponent`. -/
structure ScaledDecimal where
  digits : Nat
  exponent : Int

namespace ScaledDecimal

/-- Compares `digits · 10 ^ exponent` with `n · 2 ^ k`. -/
def compareBinary (d : ScaledDecimal) (n : Nat) (k : Int) : Ordering :=
  compare (d.digits * 10 ^ d.exponent.toNat * 2 ^ (-k).toNat)
    (n * 2 ^ k.toNat * 10 ^ (-d.exponent).toNat)

def text (d : ScaledDecimal) : String :=
  let (digits, places) := trimZeros (d.digits * 10 ^ d.exponent.toNat) (-d.exponent).toNat
  positional digits places

end ScaledDecimal

namespace Binary64.Finite

/-- Whether a double and the one below it are only half as far apart as it and the one above. -/
def narrowBelow (x : Finite) : Bool :=
  x.significand == 2 ^ (52 : Nat) && x.exponent != -1074

/-- Whether a decimal number rounds to the magnitude of `x`.  The ends of the interval, where a
half is rounded, belong to the double with the even significand. -/
def readsBack (x : Finite) (d : ScaledDecimal) : Bool :=
  let low := d.compareBinary (4 * x.significand - if x.narrowBelow then 1 else 2) (x.exponent - 2)
  let high := d.compareBinary (4 * x.significand + 2) (x.exponent - 2)
  let even := x.significand % 2 == 0
  (low == .gt || even && low == .eq) && (high == .lt || even && high == .eq)

/-- The least power of ten above the magnitude of a nonzero `x`. -/
def powerAbove (x : Finite) : Int :=
  let num := x.significand * 2 ^ x.exponent.toNat
  let den := 2 ^ (-x.exponent).toNat
  let guess := ((Nat.toDigits 10 num).length : Int) - (Nat.toDigits 10 den).length
  if num * 10 ^ (-guess).toNat < den * 10 ^ guess.toNat then guess else guess + 1

/-- The multiple of `10 ^ exponent` that reads back as `x` and is nearest to it, if there is one. -/
def onGrid? (x : Finite) (exponent : Int) : Option ScaledDecimal :=
  let floor :=
    x.significand * 2 ^ x.exponent.toNat * 10 ^ (-exponent).toNat /
      (2 ^ (-x.exponent).toNat * 10 ^ exponent.toNat)
  let below : ScaledDecimal := ⟨floor, exponent⟩
  let above : ScaledDecimal := ⟨floor + 1, exponent⟩
  match x.readsBack below, x.readsBack above with
  | false, false => none
  | true, false => some below
  | false, true => some above
  | true, true =>
    let middle : ScaledDecimal := ⟨2 * floor + 1, exponent⟩
    if middle.compareBinary x.significand (x.exponent + 1) == .gt then some below else some above

/-- Every finite double is a decimal number. -/
def exact (x : Finite) : ScaledDecimal :=
  ⟨x.significand * 2 ^ x.exponent.toNat * 5 ^ (-x.exponent).toNat, min x.exponent 0⟩

/-- The coarsest grid of decimal numbers that has one in the interval of `x` gives the fewest
digits; seventeen digits always suffice. -/
def shortest (x : Finite) : ScaledDecimal :=
  if x.significand = 0 then ⟨0, 0⟩
  else
    let top := x.powerAbove
    ((List.range 17).findSome? fun (n : Nat) => x.onGrid? (top - 1 - n)).getD x.exact

def text (x : Finite) : String :=
  (if x.negative then "-" else "") ++ x.shortest.text

end Binary64.Finite

namespace Binary64

def text : Binary64 → String
  | nan => "NaN"
  | infinite true => "-inf"
  | infinite false => "inf"
  | finite x => x.text

end Binary64

end TableDiff
