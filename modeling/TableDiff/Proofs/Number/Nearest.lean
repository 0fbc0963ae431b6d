import TableDiff.Proofs.Number.Exact

/-!
# Rounding to the nearest double

A positive quotient is rounded at the power of two that leaves 53 binary digits before the point.
A quotient that is a double already is rounded at the exponent of that double, where nothing is
lost.  So rounding gives every double back, and every whole number up to `2 ^ 53` is a double.
-/

namespace TableDiff

theorem divideHalfEven_mul (k : Nat) {den : Nat} (hden : 0 < den) :
    divideHalfEven (k * den) den = k := by
  simp [divideHalfEven, hden]

theorem le_divideHalfEven {k num den : Nat} (hden : 0 < den) (h : k * den ≤ num) :
    k ≤ divideHalfEven num den := by
  have hquotient : k ≤ num / den := (Nat.le_div_iff_mul_le hden).mpr h
  unfold divideHalfEven
  dsimp only
  split_ifs <;> omega

theorem divideHalfEven_le {k num den : Nat} (hden : 0 < den) (h : num < k * den) :
    divideHalfEven num den ≤ k := by
  have hquotient : num / den < k := (Nat.div_lt_iff_lt_mul hden).mpr h
  unfold divideHalfEven
  dsimp only
  split_ifs <;> omega

namespace Binary64

variable {num den : Nat}

theorem two_zpow_eq_div (e : Int) : (2 : Rat) ^ e = 2 ^ e.toNat / 2 ^ (-e).toNat := by
  rw [← zpow_natCast, ← zpow_natCast, ← zpow_sub₀ two_ne_zero]
  congr 1
  omega

/-- Both sides of a comparison with a power of two are scaled to whole numbers. -/
theorem scaled_lt_iff (hden : 0 < den) (k : Nat) (e : Int) :
    num * 2 ^ (-e).toNat < 2 ^ k * den * 2 ^ e.toNat ↔ (num / den : Rat) < 2 ^ (k + e) := by
  rw [zpow_add₀ two_ne_zero, zpow_natCast, two_zpow_eq_div, ← mul_div_assoc,
    div_lt_div_iff₀ (by exact_mod_cast hden) (by positivity), ← Nat.cast_lt (α := Rat)]
  push_cast
  rw [mul_right_comm]

theorem quotient_lt_two_zpow (hnum : 0 < num) (hden : 0 < den) :
    (num / den : Rat) < 2 ^ ((num.log2 : Int) - den.log2 + 1) := by
  have hupper : (num : Rat) < 2 ^ (num.log2 + 1) := by exact_mod_cast Nat.lt_log2_self
  have hlower : (2 : Rat) ^ den.log2 ≤ den := by exact_mod_cast Nat.log2_self_le hden.ne'
  calc (num / den : Rat) ≤ num / 2 ^ den.log2 := by gcongr
    _ < 2 ^ (num.log2 + 1) / 2 ^ den.log2 := by gcongr
    _ = 2 ^ ((num.log2 : Int) - den.log2 + 1) := by
      rw [← zpow_natCast, ← zpow_natCast, ← zpow_sub₀ two_ne_zero]
      congr 1
      push_cast
      omega

theorem two_zpow_le_quotient (hnum : 0 < num) (hden : 0 < den) :
    (2 : Rat) ^ ((num.log2 : Int) - den.log2 - 1) ≤ num / den := by
  have hinverse := quotient_lt_two_zpow hden hnum
  have hpos : (0 : Rat) < den / num := by positivity
  rw [← inv_div, ← inv_inv ((2 : Rat) ^ _), ← zpow_neg]
  refine inv_anti₀ hpos (le_of_lt (hinverse.trans_eq ?_))
  congr 1
  omega

/-- The significand at the chosen exponent has 53 binary digits, or fewer at the least exponent. -/
theorem exponentFor_spec (hnum : 0 < num) (hden : 0 < den) :
    -1074 ≤ exponentFor num den ∧
      (num / den : Rat) < 2 ^ (53 + exponentFor num den) ∧
      (exponentFor num den = -1074 ∨ (2 : Rat) ^ (52 + exponentFor num den) ≤ num / den) := by
  have hupper := quotient_lt_two_zpow hnum hden
  have hlower := two_zpow_le_quotient hnum hden
  obtain ⟨e, he, hlt, hle⟩ : ∃ e, exponentFor num den = max e (-1074) ∧
      (num / den : Rat) < 2 ^ (53 + e) ∧ (2 : Rat) ^ (52 + e) ≤ num / den := by
    rw [exponentFor, if_neg hnum.ne']
    generalize hguess : (num.log2 : Int) - den.log2 - 52 = guess
    refine ⟨_, rfl, ?_⟩
    have hscaled : num * 2 ^ (-guess).toNat < 2 ^ 52 * den * 2 ^ guess.toNat ↔
        (num / den : Rat) < 2 ^ ((52 : Nat) + guess) := scaled_lt_iff hden 52 guess
    split
    · next h =>
      refine ⟨?_, ?_⟩
      · convert hscaled.mp h using 2
        push_cast
        omega
      · convert hlower using 2
        omega
    · next h =>
      refine ⟨?_, ?_⟩
      · convert hupper using 2
        omega
      · exact_mod_cast not_lt.mp (mt hscaled.mpr h)
  rw [he]
  refine ⟨le_max_right _ _, hlt.trans_le ?_, ?_⟩
  · gcongr
    · norm_num
    · exact le_max_left _ _
  · rcases le_total e (-1074) with h | h
    · exact .inl (max_eq_right h)
    · rw [max_eq_left h]
      exact .inr hle

/-- A quotient within the range of doubles becomes its rounded significand, which may have one
digit too many for the exponent it was rounded at. -/
theorem ofQuotient_eq (negative : Bool) (hnum : 0 < num) (hden : 0 < den)
    (hrange : exponentFor num den ≤ 970) :
    ∃ x : Finite, ofQuotient negative num den = .finite x ∧ x.negative = negative ∧
      |x.value| = divideHalfEven (num * 2 ^ (-exponentFor num den).toNat)
        (den * 2 ^ (exponentFor num den).toNat) * (2 : Rat) ^ exponentFor num den := by
  obtain ⟨hleast, hupper, hlower⟩ := exponentFor_spec hnum hden
  rw [ofQuotient]
  generalize exponentFor num den = e at *
  have hpos : 0 < den * 2 ^ e.toNat := by positivity
  have hmost : divideHalfEven (num * 2 ^ (-e).toNat) (den * 2 ^ e.toNat) ≤ 2 ^ 53 := by
    apply divideHalfEven_le hpos
    rw [← mul_assoc]
    exact (scaled_lt_iff hden 53 e).mpr hupper
  have hnormal : 2 ^ 52 ≤ divideHalfEven (num * 2 ^ (-e).toNat) (den * 2 ^ e.toNat) ∨
      e = -1074 := by
    rcases hlower with hleast | h
    · exact .inr hleast
    · left
      apply le_divideHalfEven hpos
      rw [← mul_assoc]
      exact not_lt.mp (mt (scaled_lt_iff hden 52 e).mp (not_lt.mpr h))
  generalize divideHalfEven (num * 2 ^ (-e).toNat) (den * 2 ^ e.toNat) = significand at *
  by_cases hfull : significand = 2 ^ 53
  · refine ⟨⟨negative, 2 ^ 52, e + 1, by decide, by omega, by omega, .inl (le_refl _)⟩, ?_, rfl, ?_⟩
    · rw [if_pos hfull, ofParts, dif_pos ⟨⟨by decide, by omega⟩, by omega, .inl (le_refl _)⟩]
    · rw [Finite.abs_value, hfull, zpow_add_one₀ two_ne_zero]
      push_cast
      ring
  · have hlt : significand < 2 ^ 53 := lt_of_le_of_ne hmost hfull
    refine ⟨⟨negative, significand, e, hlt, hleast, by omega, hnormal⟩, ?_, rfl, ?_⟩
    · rw [if_neg hfull, ofParts, dif_pos ⟨⟨hlt, hleast⟩, by omega, hnormal⟩]
    · rw [Finite.abs_value]

theorem exponentFor_eq {x : Finite} (hne : x.significand ≠ 0) (hden : 0 < den)
    (h : (num / den : Rat) = x.significand * 2 ^ x.exponent) :
    exponentFor num den = x.exponent := by
  have hnum : 0 < num := by
    rcases Nat.eq_zero_or_pos num with rfl | hpos
    · have hzero : (x.significand : Rat) * 2 ^ x.exponent ≠ 0 := by positivity
      exact absurd (by simpa using h.symm) hzero
    · exact hpos
  obtain ⟨hleast, hupper, hlower⟩ := exponentFor_spec hnum hden
  rw [h] at hupper hlower
  have hlt : (x.significand : Rat) * 2 ^ x.exponent < 2 ^ (53 + x.exponent) := by
    rw [zpow_add₀ two_ne_zero]
    gcongr
    exact_mod_cast x.significand_lt
  have hone : (1 : Rat) < 2 := one_lt_two
  apply le_antisymm
  · rcases hlower with hlower | hlower
    · exact hlower.trans_le x.exponent_ge
    · have hexponents := (zpow_lt_zpow_iff_right₀ hone).mp (hlower.trans_lt hlt)
      omega
  · rcases x.normal with hnormal | hnormal
    · have hle : (2 : Rat) ^ (52 + x.exponent) ≤ x.significand * 2 ^ x.exponent := by
        rw [zpow_add₀ two_ne_zero]
        gcongr
        exact_mod_cast hnormal
      have hexponents := (zpow_lt_zpow_iff_right₀ hone).mp (hle.trans_lt hupper)
      omega
    · exact hnormal.trans_le hleast

theorem Finite.ofParts_eq (x : Finite) :
    ofParts x.negative x.significand x.exponent = .finite x := by
  rw [ofParts, dif_pos ⟨⟨x.significand_lt, x.exponent_ge⟩, x.exponent_le, x.normal⟩]

/-- A quotient that is a double is rounded to that double. -/
theorem ofQuotient_eq_finite {x : Finite} (hne : x.significand ≠ 0) (hden : 0 < den)
    (h : (num / den : Rat) = x.significand * 2 ^ x.exponent) :
    ofQuotient x.negative num den = .finite x := by
  have hscaled : num * 2 ^ (-x.exponent).toNat =
      x.significand * (den * 2 ^ x.exponent.toNat) := by
    rw [two_zpow_eq_div, ← mul_div_assoc, div_eq_div_iff (by positivity) (by positivity)] at h
    have hnat : num * 2 ^ (-x.exponent).toNat =
        x.significand * 2 ^ x.exponent.toNat * den := by exact_mod_cast h
    rw [hnat]
    ring
  have hlt := x.significand_lt
  rw [ofQuotient, exponentFor_eq hne hden h, hscaled, divideHalfEven_mul _ (by positivity),
    if_neg hlt.ne, x.ofParts_eq]

theorem Finite.ofRat_value {x : Finite} (hne : x.significand ≠ 0) : ofRat x.value = .finite x := by
  have hsign : decide (x.value < 0) = x.negative := by
    rw [Bool.eq_iff_iff, decide_eq_true_iff, value_neg_iff hne]
  rw [ofRat, hsign]
  refine ofQuotient_eq_finite hne x.value.den_pos ?_
  rw [← x.abs_value, Nat.cast_natAbs, Int.cast_abs]
  conv_rhs => rw [← Rat.num_div_den x.value]
  rw [abs_div, Nat.abs_cast]

theorem ofInt_eq_ofQuotient (n : Int) : ofInt n = ofQuotient (decide (n < 0)) n.natAbs 1 := by
  simp [ofInt, ofRat]

theorem ofRat_zero :
    ofRat 0 = .finite ⟨false, 0, -1074, by decide, by decide, by decide, .inr rfl⟩ := by
  change ofQuotient false 0 1 = _
  have hzero (den : Nat) : divideHalfEven 0 den = 0 := by
    cases den <;> simp [divideHalfEven]
  rw [ofQuotient, exponentFor, if_pos rfl, Nat.zero_mul, hzero]
  rfl

/-- Rounding a double gives its value back, also where it is a negative zero. -/
theorem Finite.value?_ofRat_value (x : Finite) : (ofRat x.value).value? = some x.value := by
  by_cases hzero : x.significand = 0
  · rw [Finite.value_eq_zero_iff.mpr hzero, ofRat_zero, value?, Finite.value_eq_zero_iff.mpr rfl]
  · rw [ofRat_value hzero, value?]

/-! ## Numbers that are doubles -/

/-- Digits are moved up until there are 53 of them or the exponent is the least one. -/
theorem exists_normal {k : Nat} {e : Int} (hk : k < 2 ^ 53) (hleast : -1074 ≤ e) :
    ∃ up : Nat, -1074 ≤ e - up ∧ k * 2 ^ up < 2 ^ 53 ∧ (2 ^ 52 ≤ k * 2 ^ up ∨ e - up = -1074) := by
  rcases Nat.eq_zero_or_pos k with rfl | hpos
  · exact ⟨(e + 1074).toNat, by omega, by simp, .inr (by omega)⟩
  have hlog : k.log2 ≤ 52 := Nat.lt_succ_iff.mp ((Nat.log2_lt hpos.ne').mpr hk)
  have hlt (up : Nat) (h : up ≤ 52 - k.log2) : k * 2 ^ up < 2 ^ 53 :=
    calc k * 2 ^ up < 2 ^ (k.log2 + 1) * 2 ^ up :=
          Nat.mul_lt_mul_of_pos_right Nat.lt_log2_self (by positivity)
      _ = 2 ^ (k.log2 + 1 + up) := by rw [← pow_add]
      _ ≤ 2 ^ 53 := Nat.pow_le_pow_right two_pos (by omega)
  rcases le_total (e + 1074).toNat (52 - k.log2) with h | h
  · exact ⟨(e + 1074).toNat, by omega, hlt _ h, .inr (by omega)⟩
  · refine ⟨52 - k.log2, by omega, hlt _ le_rfl, .inl ?_⟩
    calc 2 ^ 52 = 2 ^ k.log2 * 2 ^ (52 - k.log2) := by rw [← pow_add, Nat.add_sub_cancel' hlog]
      _ ≤ k * 2 ^ (52 - k.log2) := Nat.mul_le_mul_right _ (Nat.log2_self_le hpos.ne')

/-- A number with 53 binary digits is a double wherever they stand. -/
theorem exists_value_eq_scaled {k : Nat} {e : Int} (hk : k < 2 ^ 53) (hleast : -1074 ≤ e)
    (hmost : e ≤ 971) : ∃ x : Finite, x.value = k * 2 ^ e := by
  obtain ⟨up, hle, hlt, hnormal⟩ := exists_normal hk hleast
  refine ⟨⟨false, k * 2 ^ up, e - up, hlt, hle, by omega, hnormal⟩, ?_⟩
  rw [Finite.value, Finite.signed, if_neg Bool.false_ne_true, zpow_sub₀ two_ne_zero, zpow_natCast]
  push_cast
  field_simp

theorem exists_value_eq_natCast {k : Nat} (h : k ≤ 2 ^ 53) : ∃ x : Finite, x.value = k := by
  rcases h.eq_or_lt with rfl | hlt
  · obtain ⟨x, hx⟩ := exists_value_eq_scaled (k := 2 ^ 52) (e := 1) (by decide) (by decide)
      (by decide)
    exact ⟨x, by rw [hx]; norm_num⟩
  · simpa using exists_value_eq_scaled (e := 0) hlt (by decide) (by decide)

theorem exists_value_eq_intCast {n : Int} (h : n.natAbs ≤ 2 ^ 53) : ∃ x : Finite, x.value = n := by
  obtain ⟨x, hx⟩ := exists_value_eq_natCast h
  rw [Nat.cast_natAbs, Int.cast_abs] at hx
  rcases le_total 0 n with hn | hn
  · exact ⟨x, by rw [hx, abs_of_nonneg (by exact_mod_cast hn)]⟩
  · obtain ⟨y, hy⟩ := x.exists_value_eq_neg
    exact ⟨y, by rw [hy, hx, abs_of_nonpos (by exact_mod_cast hn), neg_neg]⟩

theorem ofInt_eq_finite {n : Int} (h : n.natAbs ≤ 2 ^ 53) :
    ∃ x : Finite, ofInt n = .finite x ∧ x.value = n := by
  obtain ⟨x, hx⟩ := exists_value_eq_intCast h
  obtain ⟨y, hy, hvalue⟩ := value?_eq_some_iff.mp x.value?_ofRat_value
  rw [hx, ← ofInt] at hy
  exact ⟨y, hy, hvalue.trans hx⟩

/-- From `2 ^ 53` on only multiples of a power of two are doubles, and rounding finds one. -/
theorem ofInt_eq_multiple {n : Int} (hlow : 2 ^ 53 ≤ n.natAbs) (hhigh : n.natAbs < 2 ^ 96) :
    ∃ (x : Finite) (e : Nat), ofInt n = .finite x ∧ 0 < e ∧ 2 ^ 52 * 2 ^ e ≤ n.natAbs ∧
      |x.value| = (divideHalfEven n.natAbs (2 ^ e) * 2 ^ e : Nat) := by
  have hpos : 0 < n.natAbs := by omega
  obtain ⟨_, hupper, hlower⟩ := exponentFor_spec hpos one_pos
  rw [Nat.cast_one, div_one] at hupper hlower
  have hone : (1 : Rat) < 2 := one_lt_two
  have hlow' : (2 : Rat) ^ (53 : Int) ≤ n.natAbs := by exact_mod_cast hlow
  have hhigh' : (n.natAbs : Rat) < 2 ^ (96 : Int) := by exact_mod_cast hhigh
  have hexponent := (zpow_lt_zpow_iff_right₀ hone).mp (hlow'.trans_lt hupper)
  have hlower := hlower.resolve_left (by omega)
  have hrange := (zpow_lt_zpow_iff_right₀ hone).mp (hlower.trans_lt hhigh')
  obtain ⟨x, hx, -, hvalue⟩ := ofQuotient_eq (decide (n < 0)) hpos one_pos (by omega)
  obtain ⟨e, he⟩ := Int.eq_ofNat_of_zero_le (a := exponentFor n.natAbs 1) (by omega)
  rw [he] at hexponent hlower hvalue
  refine ⟨x, e, (ofInt_eq_ofQuotient n).trans hx, by omega, ?_, ?_⟩
  · rw [← pow_add]
    exact_mod_cast hlower
  · rw [hvalue]
    simp

theorem ofInt_eq_whole {n : Int} (h : n.natAbs < 2 ^ 96) :
    ∃ (x : Finite) (m : Int), ofInt n = .finite x ∧ x.value = m := by
  rcases le_total n.natAbs (2 ^ 53) with hsmall | hlarge
  · obtain ⟨x, hx, hvalue⟩ := ofInt_eq_finite hsmall
    exact ⟨x, n, hx, hvalue⟩
  · obtain ⟨x, e, hx, -, -, hvalue⟩ := ofInt_eq_multiple hlarge h
    rcases abs_eq (Nat.cast_nonneg _) |>.mp hvalue with hvalue | hvalue
    · exact ⟨x, _, hx, by exact_mod_cast hvalue⟩
    · exact ⟨x, -_, hx, by exact_mod_cast hvalue⟩

/-- Only the first number above `2 ^ 53` is rounded back to it. -/
theorem lt_natAbs_of_ofInt {n m : Int} {x : Finite} (hlow : 2 ^ 53 + 1 < n.natAbs)
    (hhigh : n.natAbs < 2 ^ 96) (hx : ofInt n = .finite x) (hm : x.value = m) :
    2 ^ 53 < m.natAbs := by
  obtain ⟨y, e, hy, he, hle, hvalue⟩ := ofInt_eq_multiple (by omega) hhigh
  obtain rfl : x = y := by
    rw [hx] at hy
    exact Binary64.finite.inj hy
  have habs : m.natAbs = divideHalfEven n.natAbs (2 ^ e) * 2 ^ e := by
    rw [hm, ← Int.cast_abs, ← Int.natCast_natAbs] at hvalue
    exact_mod_cast hvalue
  rw [habs]
  obtain rfl | htwo : e = 1 ∨ 2 ≤ e := by omega
  · have hsignificand : 2 ^ 52 + 1 ≤ divideHalfEven n.natAbs (2 ^ 1) :=
      le_divideHalfEven (by decide) (by omega)
    omega
  · have hsignificand : 2 ^ 52 ≤ divideHalfEven n.natAbs (2 ^ e) :=
      le_divideHalfEven (by positivity) hle
    calc 2 ^ 53 < 2 ^ 52 * 2 ^ 2 := by decide
      _ ≤ divideHalfEven n.natAbs (2 ^ e) * 2 ^ e :=
        Nat.mul_le_mul hsignificand (Nat.pow_le_pow_right two_pos htwo)

end Binary64

end TableDiff
