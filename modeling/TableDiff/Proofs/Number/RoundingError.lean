import TableDiff.Proofs.Number.ShortDecimals

/-!
# The error of rounding to a double

Rounding to the nearest double moves a number by at most `2 ^ -53` of its size.  The conversion of
a decimal number into a double rounds several times, but if the number has at most 15 digits all
errors but the last are repaired by rounding at its scale.  The result is then the nearest double.
-/

namespace TableDiff

theorem abs_divideHalfEven_sub_le (num : Nat) {den : Nat} (hden : 0 < den) :
    |(divideHalfEven num den : Rat) - num / den| ≤ 1 / 2 := by
  have hdiv := Nat.div_add_mod' num den
  have hmod := Nat.mod_lt num hden
  have hscaled : 2 * (divideHalfEven num den * den) ≤ 2 * num + den ∧
      2 * num ≤ 2 * (divideHalfEven num den * den) + den := by
    rw [divideHalfEven]
    split_ifs <;> constructor <;> (try rw [Nat.add_mul]) <;> omega
  have hpos : (0 : Rat) < den := by exact_mod_cast hden
  have hupper : (2 * (divideHalfEven num den * den) : Rat) ≤ 2 * num + den := by
    exact_mod_cast hscaled.1
  have hlower : (2 * num : Rat) ≤ 2 * (divideHalfEven num den * den) + den := by
    exact_mod_cast hscaled.2
  have hcancel : (num / den : Rat) * den = num := div_mul_cancel₀ _ hpos.ne'
  rw [abs_le]
  constructor <;> nlinarith

namespace Binary64

theorem Finite.value_eq_of_negative_eq_false {x : Finite} (h : x.negative = false) :
    x.value = x.significand * 2 ^ x.exponent := by
  rw [value, signed, if_neg (by simp [h])]
  rfl

variable {num den : Nat}

theorem scaled_quotient (num : Nat) (hden : 0 < den) (e : Int) :
    ((num * 2 ^ (-e).toNat : Nat) / (den * 2 ^ e.toNat : Nat) : Rat) * 2 ^ e = num / den := by
  rw [two_zpow_eq_div]
  push_cast
  field_simp

/-- Numbers of moderate size have 53 binary digits as a double. -/
theorem exponentFor_of_moderate (hnum : 0 < num) (hden : 0 < den)
    (hlow : (1 / 2 ^ 100 : Rat) ≤ num / den) (hhigh : (num / den : Rat) < 2 ^ 100) :
    (2 : Rat) ^ (52 + exponentFor num den) ≤ num / den ∧ exponentFor num den ≤ 970 := by
  obtain ⟨-, -, hdigits⟩ := exponentFor_spec hnum hden
  have hone : (1 : Rat) < 2 := one_lt_two
  have hfull : (2 : Rat) ^ (52 + exponentFor num den) ≤ num / den := by
    rcases hdigits with hleast | hfull
    · apply le_trans _ hlow
      rw [hleast, one_div, ← zpow_natCast, ← zpow_neg]
      exact zpow_le_zpow_right₀ hone.le (by decide)
    · exact hfull
  have hexponent := (zpow_lt_zpow_iff_right₀ hone).mp
    (hfull.trans_lt (hhigh.trans_eq (zpow_natCast 2 100).symm))
  exact ⟨hfull, by omega⟩

theorem ofQuotient_near (hnum : 0 < num) (hden : 0 < den)
    (hlow : (1 / 2 ^ 100 : Rat) ≤ num / den) (hhigh : (num / den : Rat) < 2 ^ 100) :
    ∃ x : Finite, ofQuotient false num den = .finite x ∧ x.negative = false ∧
      |x.value - num / den| ≤ num / den / 2 ^ 53 := by
  obtain ⟨hfull, hrange⟩ := exponentFor_of_moderate hnum hden hlow hhigh
  obtain ⟨x, hx, hsign, hvalue⟩ := ofQuotient_eq false hnum hden hrange
  refine ⟨x, hx, hsign, ?_⟩
  generalize exponentFor num den = e at *
  have hpower : (0 : Rat) < 2 ^ e := by positivity
  have hscaled := scaled_quotient num hden e
  have hdenominator : 0 < den * 2 ^ e.toNat := by positivity
  have herror := abs_divideHalfEven_sub_le (num * 2 ^ (-e).toNat) hdenominator
  generalize num * 2 ^ (-e).toNat = top at *
  generalize den * 2 ^ e.toNat = bottom at *
  have hpositive : x.value = |x.value| := by
    rw [x.abs_value, Finite.value_eq_of_negative_eq_false hsign]
  calc |x.value - num / den| = |(divideHalfEven top bottom : Rat) - top / bottom| * 2 ^ e := by
        rw [hpositive, hvalue, ← hscaled, ← sub_mul, abs_mul, abs_of_pos hpower]
    _ ≤ 1 / 2 * 2 ^ e := by gcongr
    _ = 2 ^ (52 + e) / 2 ^ 53 := by
      rw [zpow_add₀ two_ne_zero]
      norm_num
      ring
    _ ≤ num / den / 2 ^ 53 := by gcongr

theorem ofRat_near {q : Rat} (hlow : 1 / 2 ^ 100 ≤ q) (hhigh : q < 2 ^ 100) :
    ∃ x : Finite, ofRat q = .finite x ∧ x.negative = false ∧ |x.value - q| ≤ q / 2 ^ 53 := by
  have hq : 0 < q := lt_of_lt_of_le (by norm_num) hlow
  have hnum : 0 < q.num.natAbs := Int.natAbs_pos.mpr (Rat.num_pos.mpr hq).ne'
  have hquotient : (q.num.natAbs / q.den : Rat) = q := by
    rw [Nat.cast_natAbs, abs_of_pos (Rat.num_pos.mpr hq), Rat.num_div_den]
  have hnear := ofQuotient_near hnum q.den_pos (by rwa [hquotient]) (by rwa [hquotient])
  rw [hquotient] at hnear
  rwa [ofRat, decide_eq_false (not_lt.mpr hq.le)]

end Binary64

namespace Decimal

theorem nearest_near {q : Rat} (hlow : 1 / 2 ^ 100 ≤ q) (hhigh : q < 2 ^ 100) :
    |nearest q - q| ≤ q / 2 ^ 53 := by
  obtain ⟨x, hx, -, hnear⟩ := Binary64.ofRat_near hlow hhigh
  rw [nearest, hx]
  exact hnear

/-- Rounding a number that is already off adds its own error to that. -/
theorem nearest_near_of_near {a q k : Rat} (hlow : 1 / 2 ^ 99 ≤ q) (hhigh : q < 2 ^ 99) (hk : k ≤ 4)
    (h : |a - q| ≤ k * (q / 2 ^ 53)) : |nearest a - q| ≤ (k + 3 / 2) * (q / 2 ^ 53) := by
  obtain ⟨hbelow, habove⟩ := abs_le.mp h
  have hq : 0 < q := lt_of_lt_of_le (by norm_num) hlow
  have hkq : k * (q / 2 ^ 53) ≤ 4 * (q / 2 ^ 53) := by gcongr
  have hnear := nearest_near (q := a) (by linarith) (by linarith)
  calc |nearest a - q| ≤ |nearest a - a| + |a - q| := abs_sub_le _ _ _
    _ ≤ a / 2 ^ 53 + k * (q / 2 ^ 53) := add_le_add hnear h
    _ ≤ (k + 3 / 2) * (q / 2 ^ 53) := by linarith

theorem eq_of_abs_sub_lt_one {c k : Nat} (h : |(c : Rat) - k| < 1) : c = k := by
  have hcast : |(c : Int) - k| < 1 := by exact_mod_cast h
  have hzero := Int.abs_lt_one_iff.mp hcast
  omega

theorem roundHalfUp_of_near {x : Rat} {m : Nat} (h : |x - m| < 1 / 2) : roundHalfUp x = m := by
  obtain ⟨hbelow, habove⟩ := abs_lt.mp h
  have hfloor : ⌊x + 1 / 2⌋ = (m : Int) := by
    rw [Int.floor_eq_iff]
    constructor <;> push_cast <;> linarith
  rw [roundHalfUp]
  exact_mod_cast congrArg (Int.cast (R := Rat)) hfloor

section

variable {m scale : Nat} (hzero : 0 < m) (hm : m < 10 ^ 15) (hscale : scale ≤ 22)

include hzero hm hscale

theorem bounds_of_fifteen_digits :
    (1 / 10 ^ 22 : Rat) ≤ m / 10 ^ scale ∧ (m / 10 ^ scale : Rat) < 10 ^ 15 := by
  have hone : (1 : Rat) ≤ m := by exact_mod_cast hzero
  have hm' : (m : Rat) < 10 ^ 15 := by exact_mod_cast hm
  constructor
  · gcongr
    norm_num
  · exact (div_le_self (by positivity) (one_le_pow₀ (by norm_num))).trans_lt hm'

/-- The sum of the whole part and the fraction is off by little enough to be repaired. -/
theorem roundHalfUp_of_parts {whole rest : Nat} (hrest : 0 < rest)
    (hsum : (whole + rest / 10 ^ scale : Rat) = m / 10 ^ scale) :
    nearest (rest / 10 ^ scale) ≠ 0 ∧
      roundHalfUp (nearest (nearest (whole + nearest (rest / 10 ^ scale)) * 10 ^ scale)) = m := by
  obtain ⟨hlow, hhigh⟩ := bounds_of_fifteen_digits hzero hm hscale
  have hpower : (0 : Rat) < 10 ^ scale := by positivity
  have hmost : (10 : Rat) ^ scale ≤ 10 ^ 22 := pow_le_pow_right₀ (by norm_num) hscale
  have hm' : (m : Rat) < 10 ^ 15 := by exact_mod_cast hm
  have hone : (1 : Rat) ≤ m := by exact_mod_cast hzero
  have hrest' : (1 : Rat) ≤ rest := by exact_mod_cast hrest
  generalize (10 : Rat) ^ scale = power at *
  have hleast : (1 / 10 ^ 22 : Rat) ≤ rest / power := by gcongr
  have hpart : rest / power ≤ m / power := by
    rw [← hsum]
    exact le_add_of_nonneg_left (Nat.cast_nonneg _)
  have hfraction := nearest_near (q := rest / power) (by linarith) (by linarith)
  have hparts : |(whole : Rat) + nearest (rest / power) - m / power| ≤
      1 * (m / power / 2 ^ 53) := by
    rw [← hsum, add_sub_add_left_eq_sub, hsum, one_mul]
    exact hfraction.trans (by gcongr)
  have hrounded := nearest_near_of_near (by linarith) (by linarith) (by norm_num) hparts
  have hproduct : |nearest (whole + nearest (rest / power)) * power - m| ≤
      (1 + 3 / 2) * (m / 2 ^ 53) :=
    calc |nearest (whole + nearest (rest / power)) * power - m|
        = |(nearest (whole + nearest (rest / power)) - m / power) * power| := by
          rw [sub_mul, div_mul_cancel₀ _ hpower.ne']
      _ = |nearest (whole + nearest (rest / power)) - m / power| * power := by
          rw [abs_mul, abs_of_pos hpower]
      _ ≤ (1 + 3 / 2) * (m / power / 2 ^ 53) * power := by gcongr
      _ = (1 + 3 / 2) * (m / 2 ^ 53) := by field_simp
  have hnear := nearest_near_of_near (by linarith) (by linarith) (by norm_num) hproduct
  obtain ⟨hbelow, -⟩ := abs_le.mp hfraction
  exact ⟨by linarith, roundHalfUp_of_near (by linarith)⟩

/-- Up to 15 digits the errors before the last rounding do not count. -/
theorem magnitudeToBinary64_eq :
    magnitudeToBinary64 m scale = Binary64.ofRat (m / 10 ^ scale) := by
  obtain ⟨hpower, hstep⟩ := power_exact hscale
  have hwhole : nearest (m / 10 ^ scale : Nat) = (m / 10 ^ scale : Nat) :=
    nearest_natCast ((Nat.div_le_self _ _).trans (by omega))
  have hrest : nearest (m % 10 ^ scale : Nat) = (m % 10 ^ scale : Nat) :=
    nearest_natCast ((Nat.mod_le _ _).trans (by omega))
  have hten : ((10 ^ scale : Nat) : Rat) = 10 ^ scale := by
    push_cast
    rfl
  have hsum : ((m / 10 ^ scale : Nat) : Rat) + (m % 10 ^ scale : Nat) / 10 ^ scale =
      m / 10 ^ scale := by
    rw [eq_div_iff (by positivity), add_mul, div_mul_cancel₀ _ (by positivity)]
    exact_mod_cast Nat.div_add_mod' m (10 ^ scale)
  rw [hten] at hpower hstep
  rw [magnitudeToBinary64]
  simp only [hwhole, hrest, hten, hpower, hstep]
  rcases Nat.eq_zero_or_pos (m % 10 ^ scale) with hwholenumber | hfraction
  · rw [hwholenumber, Nat.cast_zero, zero_div, add_zero] at hsum
    rw [hwholenumber, Nat.cast_zero, zero_div, if_pos nearest_zero, hsum]
  · obtain ⟨hne, hback⟩ := roundHalfUp_of_parts hzero hm hscale hfraction hsum
    rw [if_neg hne, hback]

end

end Decimal

end TableDiff
