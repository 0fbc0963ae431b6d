import TableDiff.Number.Rounding
import TableDiff.Proofs.Number.Nearest

/-!
# Whole numbers between doubles and decimal numbers

A whole double below `2 ^ 96` becomes the decimal number of the same value: no step of the
conversion drops a digit.  A whole decimal number becomes the nearest double of its value.
-/

namespace TableDiff

namespace Decimal

/-- Factors of two are used up before the number grows. -/
theorem timesFive_mul_two_pow (j r b : Nat) (e : Int) :
    timesFive (j + r) (b * 2 ^ j) e = timesFive r b (e + j) := by
  induction j generalizing e with
  | zero => simp
  | succ j ih =>
      have hdouble : b * 2 ^ (j + 1) = 2 * (b * 2 ^ j) := by ring
      have hsteps : j + 1 + r = (j + r) + 1 := by omega
      rw [hsteps, timesFive, hdouble, if_pos (Nat.mul_mod_right 2 _),
        Nat.mul_div_cancel_left _ two_pos, ih]
      congr 1
      push_cast
      ring

/-- A multiple of a power of two is doubled until nothing is left to divide, or given up. -/
theorem overFive_eq {n b : Nat} (hb : b < 2 ^ 96) :
    overFive n b n = if b * 2 ^ n < 2 ^ 96 then some (b * 2 ^ n, 0) else none := by
  induction n generalizing b with
  | zero =>
      rw [overFive, pow_zero, mul_one, if_pos hb]
      rfl
  | succ n ih =>
      rw [overFive]
      have hpower : b * 2 ^ (n + 1) = b * 2 * 2 ^ n := by ring
      split
      · next hroom =>
        have hexponent : ((n + 1 : Nat) : Int) - 1 = n := by omega
        rw [hexponent, ih (by omega), hpower]
      · next hfull =>
        have hlarge : ¬ b * 2 ^ (n + 1) < 2 ^ 96 := by
          have hle : b * 2 ≤ b * 2 * 2 ^ n := Nat.le_mul_of_pos_right _ (Nat.two_pow_pos n)
          omega
        rw [if_pos (by omega), if_neg hlarge]

/-- A whole number keeps all its digits, as far as there is room for them. -/
theorem ofPower?_of_whole {s k : Nat} {e : Int} (hs : s < 2 ^ 53)
    (h : s * 2 ^ e.toNat = k * 2 ^ (-e).toNat) :
    ofPower? s e = if k < 2 ^ 96 then some (k, 0) else none := by
  rcases lt_or_ge e 0 with hneg | hnonneg
  · have hzero : e.toNat = 0 := by omega
    rw [hzero, pow_zero, mul_one] at h
    have hk : k < 2 ^ 96 := by
      have hle : k ≤ k * 2 ^ (-e).toNat := Nat.le_mul_of_pos_right _ (Nat.two_pow_pos _)
      omega
    have hsum : e + (-e).toNat = 0 := by omega
    have hfive := timesFive_mul_two_pow (-e).toNat 0 k e
    rw [add_zero, hsum] at hfive
    rw [ofPower?, if_pos hneg, h, hfive, if_pos hk]
    rfl
  · obtain ⟨n, rfl⟩ := Int.eq_ofNat_of_zero_le hnonneg
    have hk : s * 2 ^ n = k := by simpa using h
    rw [ofPower?, if_neg (by omega), Int.toNat_natCast, overFive_eq (by omega), hk]
    split <;> rfl

theorem value_ofParts? {negative : Bool} {m places : Nat} (hm : m < 2 ^ 96)
    (hplaces : places ≤ 28) :
    (ofParts? negative m places).map value =
      some (if negative then -(m / 10 ^ places : Rat) else m / 10 ^ places) := by
  rw [ofParts?, dif_pos ⟨hm, hplaces⟩, Option.map_some, value, Rat.mkRat_eq_div, signed]
  cases negative <;> simp [neg_div]

theorem value_ofParts?_zero {negative : Bool} {k : Nat} (h : k < 2 ^ 96) :
    (ofParts? negative k 0).map value = some (if negative then -(k : Rat) else k) := by
  rw [value_ofParts? h (by decide), pow_zero, div_one]

theorem value_ofInt? {n : Int} (h : n.natAbs < 2 ^ 96) : (ofInt? n).map value = some (n : Rat) := by
  rw [ofInt?, value_ofParts?_zero h, Nat.cast_natAbs, Int.cast_abs]
  by_cases hn : n < 0
  · have hneg : (n : Rat) < 0 := by exact_mod_cast hn
    rw [decide_eq_true hn, if_pos rfl, abs_of_neg hneg, neg_neg]
  · have hnonneg : (0 : Rat) ≤ n := by exact_mod_cast not_lt.mp hn
    rw [decide_eq_false hn, if_neg Bool.false_ne_true, abs_of_nonneg hnonneg]

end Decimal

namespace Binary64

theorem neg_ofQuotient (negative : Bool) (num den : Nat) :
    (ofQuotient negative num den).neg = ofQuotient (!negative) num den := by
  unfold ofQuotient ofParts
  dsimp only
  split_ifs <;> rfl

theorem value?_ofInt_neg (n : Int) : (ofInt (-n)).value? = (ofInt n).value?.map (-·) := by
  rcases eq_or_ne n 0 with rfl | hne
  · have hzero : (ofInt 0).value? = some 0 := by
      rw [ofInt, Int.cast_zero, ofRat_zero, value?, Finite.value_eq_zero_iff.mpr rfl]
    rw [neg_zero, hzero, Option.map_some, neg_zero]
  · have hsign : decide (-n < 0) = !decide (n < 0) := by
      rw [← decide_not, decide_eq_decide]
      omega
    rw [ofInt_eq_ofQuotient, ofInt_eq_ofQuotient, Int.natAbs_neg, hsign, ← neg_ofQuotient,
      value?_neg]

end Binary64

namespace Decimal

open Binary64 (Finite)

/-- The decimal form of a whole double has the value of the double. -/
theorem value_ofBinary64?_of_whole {x : Finite} {m : Int} (h : x.value = m) :
    (ofBinary64? (.finite x)).map value = if m.natAbs < 2 ^ 96 then some (m : Rat) else none := by
  by_cases hzero : x.significand = 0
  · have hm : m = 0 := by
      rw [Finite.value_eq_zero_iff.mpr hzero] at h
      exact_mod_cast h.symm
    subst hm
    rw [ofBinary64?, if_pos hzero, value_ofParts?_zero (by decide)]
    simp
  · have habs : |x.value| = m.natAbs := by rw [h, Nat.cast_natAbs, Int.cast_abs]
    have hscaled : x.significand * 2 ^ x.exponent.toNat = m.natAbs * 2 ^ (-x.exponent).toNat := by
      rw [Finite.abs_value, Binary64.two_zpow_eq_div, ← mul_div_assoc,
        div_eq_iff (by positivity)] at habs
      exact_mod_cast habs
    rw [ofBinary64?, if_neg hzero, ofPower?_of_whole x.significand_lt hscaled]
    split
    · next hlt =>
      have hsign := x.value_eq_abs
      rw [habs, h] at hsign
      change (ofParts? x.negative m.natAbs 0).map value = _
      rw [value_ofParts?_zero hlt, ← hsign]
    · rfl

/-! ## From a decimal number -/

theorem nearest_zero : nearest 0 = 0 := by
  rw [nearest, Binary64.ofRat_zero, Binary64.value?, Finite.value_eq_zero_iff.mpr rfl,
    Option.getD_some]

/-- Without a fraction only the whole part is rounded. -/
theorem value?_magnitudeToBinary64 {mantissa scale k : Nat} (h : mantissa = k * 10 ^ scale)
    (hk : k < 2 ^ 96) :
    (magnitudeToBinary64 mantissa scale).value? = (Binary64.ofInt k).value? := by
  have hpower : 0 < 10 ^ scale := by positivity
  obtain ⟨x, _, hx, -⟩ := Binary64.ofInt_eq_whole (n := k) (by simpa using hk)
  have hnearest : nearest k = x.value := by
    rw [nearest, ← Int.cast_natCast, ← Binary64.ofInt, hx]
    rfl
  rw [magnitudeToBinary64]
  dsimp only
  rw [h, Nat.mul_mod_left, Nat.mul_div_cancel _ hpower, Nat.cast_zero, nearest_zero, zero_div,
    nearest_zero, if_pos rfl, hnearest, x.value?_ofRat_value, hx]
  rfl

theorem signed_eq_of_value {d : Decimal} {k : Int} (h : d.value = k) :
    d.signed = k * 10 ^ d.scale := by
  rw [value, Rat.mkRat_eq_div, div_eq_iff (by positivity)] at h
  exact_mod_cast h

theorem mantissa_eq_of_value {d : Decimal} {k : Int} (h : d.value = k) :
    d.mantissa = k.natAbs * 10 ^ d.scale := by
  rw [← natAbs_signed, signed_eq_of_value h, Int.natAbs_mul, Int.natAbs_pow]
  rfl

theorem natAbs_lt_of_value {d : Decimal} {k : Int} (h : d.value = k) : k.natAbs < 2 ^ 96 := by
  have hle : k.natAbs ≤ k.natAbs * 10 ^ d.scale := Nat.le_mul_of_pos_right _ (by positivity)
  have hlt := d.mantissa_lt
  rw [mantissa_eq_of_value h] at hlt
  omega

/-- A whole decimal number is rounded to the nearest double of its value. -/
theorem value?_toBinary64_of_whole {d : Decimal} {k : Int} (h : d.value = k) :
    d.toBinary64.value? = (Binary64.ofInt k).value? := by
  have hsigned := signed_eq_of_value h
  have hmantissa := mantissa_eq_of_value h
  rw [toBinary64]
  split
  · next hscale =>
    rw [hsigned, hscale, pow_zero, mul_one]
  · have hmagnitude := value?_magnitudeToBinary64 hmantissa (natAbs_lt_of_value h)
    have hsign : k = if d.negative then -(k.natAbs : Int) else k.natAbs := by
      have hpos : (10 ^ d.scale : Int) ≠ 0 := by positivity
      apply Int.eq_of_mul_eq_mul_right hpos
      rw [← hsigned, signed, hmantissa]
      split <;> push_cast <;> ring
    cases hnegative : d.negative with
    | false =>
        rw [hnegative, if_neg Bool.false_ne_true] at hsign
        rw [if_neg Bool.false_ne_true, hmagnitude, ← hsign]
    | true =>
        rw [hnegative, if_pos rfl] at hsign
        rw [if_pos rfl, Binary64.value?_neg, hmagnitude, ← Binary64.value?_ofInt_neg, ← hsign]

end Decimal

end TableDiff
