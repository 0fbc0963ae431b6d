import TableDiff.Number.Binary64
import TableDiff.Number.Decimal
import Mathlib.Tactic

/-!
# Exact values

A finite double counts steps of `2 ^ -1074` and a decimal number counts steps of `10 ^ -28`, so two
numbers of one format are equal when they count the same.  A number is whole when its exact value
is an integer.
-/

namespace TableDiff

theorem Rat.num_eq_iff {q : Rat} {k : Int} : q.den = 1 ∧ q.num = k ↔ q = k := by
  constructor
  · rintro ⟨hden, rfl⟩
    exact (Rat.den_eq_one_iff q).mp hden |>.symm
  · rintro rfl
    exact ⟨Rat.den_intCast k, Rat.num_intCast k⟩

namespace Binary64

theorem Finite.value_eq_units_div (x : Finite) : x.value = x.units / 2 ^ 1074 := by
  have hge := x.exponent_ge
  have hpower : (2 : Rat) ^ x.exponent = 2 ^ (x.exponent + 1074).toNat / 2 ^ 1074 := by
    rw [← zpow_natCast, ← zpow_natCast, ← zpow_sub₀ two_ne_zero]
    congr 1
    omega
  rw [value, units, hpower, ← mul_div_assoc]
  push_cast
  rfl

theorem Finite.value_eq_value_iff {x y : Finite} : x.value = y.value ↔ x.units = y.units := by
  rw [value_eq_units_div, value_eq_units_div, div_left_inj' (by positivity), Int.cast_inj]

theorem Finite.abs_value (x : Finite) : |x.value| = x.significand * 2 ^ x.exponent := by
  have hpower : (0 : Rat) < 2 ^ x.exponent := by positivity
  rw [value, abs_mul, abs_of_pos hpower, signed]
  split <;> simp

theorem Finite.value_eq_abs (x : Finite) :
    x.value = if x.negative then -|x.value| else |x.value| := by
  rw [abs_value, value, signed]
  split <;> simp

theorem Finite.value_eq_zero_iff {x : Finite} : x.value = 0 ↔ x.significand = 0 := by
  rw [← abs_eq_zero, abs_value]
  simp [zpow_ne_zero]

theorem Finite.value_neg_iff {x : Finite} (hne : x.significand ≠ 0) :
    x.value < 0 ↔ x.negative = true := by
  have hpower : (0 : Rat) < 2 ^ x.exponent := by positivity
  rw [value, ← not_le, mul_nonneg_iff_of_pos_right hpower, not_le, signed]
  cases x.negative with
  | false => simp
  | true => simpa using Nat.pos_of_ne_zero hne

theorem Finite.exists_value_eq_neg (x : Finite) : ∃ y : Finite, y.value = -x.value := by
  refine ⟨{ x with negative := !x.negative }, ?_⟩
  unfold value signed
  cases x.negative <;> simp

theorem value?_eq_some_iff {x : Binary64} {q : Rat} :
    x.value? = some q ↔ ∃ y : Finite, x = .finite y ∧ y.value = q := by
  cases x <;> simp [value?]

theorem integer?_eq_some_iff {x : Binary64} {k : Int} :
    x.integer? = some k ↔ x.value? = some (k : Rat) := by
  unfold integer?
  cases x.value? with
  | none => simp
  | some v => simp [Rat.num_eq_iff]

theorem value?_neg (x : Binary64) : x.neg.value? = x.value?.map (-·) := by
  cases x with
  | nan => rfl
  | infinite negative => rfl
  | finite x =>
      simp only [neg, value?, Option.map_some, Finite.value, Finite.signed]
      cases x.negative <;> simp

end Binary64

/-! ## Decimal numbers -/

theorem trimZeros_mul_pow (digits places : Nat) :
    (trimZeros digits places).1 * 10 ^ (places - (trimZeros digits places).2) = digits := by
  induction places generalizing digits with
  | zero => simp [trimZeros]
  | succ places ih =>
      unfold trimZeros
      split
      · next hzero =>
        have hle := trimZeros_places_le (digits / 10) places
        rw [Nat.succ_sub hle, pow_succ, ← mul_assoc, ih]
        exact Nat.div_mul_cancel (Nat.dvd_of_mod_eq_zero hzero)
      · simp

/-- Leaving out zeros at the end keeps the number. -/
theorem trimZeros_mul_pow_eq {digits places m k : Nat} (h : digits * 10 ^ k = m * 10 ^ places) :
    (trimZeros digits places).1 * 10 ^ k = m * 10 ^ (trimZeros digits places).2 := by
  have hdigits := trimZeros_mul_pow digits places
  have hplaces := trimZeros_places_le digits places
  generalize trimZeros digits places = trimmed at *
  apply Nat.eq_of_mul_eq_mul_right (by positivity : 0 < 10 ^ (places - trimmed.2))
  calc trimmed.1 * 10 ^ k * 10 ^ (places - trimmed.2)
      = trimmed.1 * 10 ^ (places - trimmed.2) * 10 ^ k := by ring
    _ = m * 10 ^ places := by rw [hdigits, h]
    _ = m * 10 ^ trimmed.2 * 10 ^ (places - trimmed.2) := by
      rw [mul_assoc, ← pow_add, Nat.add_sub_cancel' hplaces]

namespace Decimal

theorem value_eq_units_div (d : Decimal) : d.value = d.units / 10 ^ 28 := by
  have hscale : 28 = (28 - d.scale) + d.scale := by have := d.scale_le; omega
  rw [value, units, Rat.mkRat_eq_div]
  push_cast
  rw [div_eq_div_iff (by positivity) (by positivity), mul_assoc, ← pow_add, ← hscale]

theorem value_eq_value_iff {d d' : Decimal} : d.value = d'.value ↔ d.units = d'.units := by
  rw [value_eq_units_div, value_eq_units_div, div_left_inj' (by positivity), Int.cast_inj]

theorem natAbs_signed (d : Decimal) : d.signed.natAbs = d.mantissa := by
  unfold signed
  split <;> simp

theorem integer?_eq_some_iff {d : Decimal} {k : Int} : d.integer? = some k ↔ d.value = k := by
  have hpow : (10 ^ d.scale : Int) ≠ 0 := by positivity
  have hvalue : d.value = k ↔ d.signed = k * 10 ^ d.scale := by
    rw [value, Rat.mkRat_eq_div, div_eq_iff (by positivity)]
    exact_mod_cast Iff.rfl
  have hdvd : d.mantissa % 10 ^ d.scale = 0 ↔ (10 ^ d.scale : Int) ∣ d.signed := by
    rw [← Nat.dvd_iff_mod_eq_zero, ← natAbs_signed, ← Int.natCast_dvd]
    push_cast
    rfl
  rw [hvalue, integer?]
  split
  · next hmod =>
    rw [Option.some.injEq, Int.ediv_eq_iff_eq_mul_left hpow (hdvd.mp hmod)]
  · next hmod =>
    apply iff_of_false (by simp)
    intro heq
    apply hmod
    rw [hdvd, heq]
    exact Dvd.intro_left k rfl

end Decimal

end TableDiff
