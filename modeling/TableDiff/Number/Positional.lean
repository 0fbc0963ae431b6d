/-!
# Positional decimal notation

A natural number of digits and a number of places stand for `digits / 10 ^ places`.  Powers of
numbers are those of the language, also where a library declares others; `Powers` is opened where
numbers are defined by powers.
-/

namespace TableDiff

namespace Powers

attribute [scoped instance (2000)] instPowNat

end Powers

open Powers

/-- Decimal text of `digits / 10 ^ places`, with exactly `places` digits after the point. -/
def positional (digits places : Nat) : String :=
  if places = 0 then toString digits
  else
    let fraction := Nat.toDigits 10 (digits % 10 ^ places)
    toString (digits / 10 ^ places) ++ "." ++
      String.ofList (List.replicate (places - fraction.length) '0' ++ fraction)

/-- The same number with no zero at the end of its fraction. -/
def trimZeros (digits : Nat) : Nat → Nat × Nat
  | 0 => (digits, 0)
  | places + 1 =>
    if digits % 10 = 0 then trimZeros (digits / 10) places else (digits, places + 1)

theorem trimZeros_places_le (digits places : Nat) : (trimZeros digits places).2 ≤ places := by
  induction places generalizing digits with
  | zero => exact Nat.le_refl 0
  | succ places ih =>
    unfold trimZeros
    split
    · exact Nat.le_succ_of_le (ih _)
    · exact Nat.le_refl _

theorem trimZeros_digits_le (digits places : Nat) : (trimZeros digits places).1 ≤ digits := by
  induction places generalizing digits with
  | zero => exact Nat.le_refl _
  | succ places ih =>
    unfold trimZeros
    split
    · exact Nat.le_trans (ih _) (Nat.div_le_self _ _)
    · exact Nat.le_refl _

end TableDiff
