import TableDiff.Proofs.Number.WholeNumbers

/-!
# Doubles that are short decimal numbers

Some doubles have a short exact decimal notation, such as `12.5`: the number without its point
is below `2 ^ 52`.  Both conversions are exact on them, so they become the decimal number that they
are, and come back from it.
-/

namespace TableDiff

/-- An odd number times a power of ten has no more factors of two than the power of ten. -/
theorem eq_of_odd_mul_pow {o m k r : Nat} (hodd : o % 2 = 1) (h : o * 10 ^ k = m * 2 ^ r) :
    r ≤ k ∧ m = o * 5 ^ r * 10 ^ (k - r) := by
  have hten (i : Nat) : 10 ^ i = 5 ^ i * 2 ^ i := mul_pow 5 2 i
  have hle : r ≤ k := by
    have hcoprime : Nat.Coprime (2 ^ r) (o * 5 ^ k) := by
      apply Nat.Coprime.pow_left
      rw [Nat.coprime_two_left]
      exact (Nat.odd_iff.mpr hodd).mul (Odd.pow (by decide))
    have hdvd : 2 ^ r ∣ o * 5 ^ k * 2 ^ k := ⟨m, by rw [mul_assoc, ← hten, h, mul_comm]⟩
    exact (Nat.pow_dvd_pow_iff_le_right (by decide)).mp (hcoprime.dvd_of_dvd_mul_left hdvd)
  refine ⟨hle, Nat.eq_of_mul_eq_mul_right (Nat.two_pow_pos r) ?_⟩
  calc m * 2 ^ r = o * 10 ^ (r + (k - r)) := by rw [← h, Nat.add_sub_cancel' hle]
    _ = o * 5 ^ r * 10 ^ (k - r) * 2 ^ r := by rw [pow_add, hten r]; ring

/-- Lowest terms of a number that has a binary and a decimal notation: factors of two are left out
until there are none or no places. -/
theorem exists_lowest_terms {s n m k : Nat} (hs : s ≠ 0) (h : s * 10 ^ k = m * 2 ^ n) :
    ∃ o r, r ≤ n ∧ r ≤ k ∧ (r ≠ 0 → o % 2 = 1) ∧ s = o * 2 ^ (n - r) ∧
      m = o * 5 ^ r * 10 ^ (k - r) := by
  obtain ⟨v, o, hodd, rfl⟩ := Nat.exists_eq_two_pow_mul_odd hs
  rcases le_total n v with hnv | hvn
  · refine ⟨o * 2 ^ (v - n), 0, by omega, by omega, ?_, ?_, ?_⟩
    · intro hne
      exact absurd rfl hne
    · rw [Nat.sub_zero, mul_assoc, ← pow_add, Nat.sub_add_cancel hnv, mul_comm]
    · apply Nat.eq_of_mul_eq_mul_right (Nat.two_pow_pos n)
      rw [← h, ← Nat.sub_add_cancel hnv, pow_add, Nat.add_sub_cancel]
      simp only [pow_zero, Nat.sub_zero]
      ring
  · have hterms : o * 10 ^ k = m * 2 ^ (n - v) := by
      apply Nat.eq_of_mul_eq_mul_right (Nat.two_pow_pos v)
      rw [mul_assoc m, ← pow_add, Nat.sub_add_cancel hvn, ← h]
      ring
    obtain ⟨hle, hm⟩ := eq_of_odd_mul_pow (Nat.odd_iff.mp hodd) hterms
    refine ⟨o, n - v, by omega, hle, ?_, ?_, hm⟩
    · intro _
      exact Nat.odd_iff.mp hodd
    · rw [Nat.sub_sub_self hvn, mul_comm]

namespace Decimal

theorem timesFive_of_odd {r b : Nat} (hodd : r ≠ 0 → b % 2 = 1) (h : b * 5 ^ r < 2 ^ 96) (e : Int) :
    timesFive r b e = (b * 5 ^ r, e) := by
  induction r generalizing b with
  | zero => simp [timesFive]
  | succ r ih =>
      have hb := hodd (Nat.succ_ne_zero r)
      have hpower : b * 5 ^ (r + 1) = b * 5 * 5 ^ r := by ring
      rw [hpower] at h
      have hroom : b * 5 < 2 ^ 96 := (Nat.le_mul_of_pos_right _ (by positivity)).trans_lt h
      rw [timesFive, if_neg (by omega), if_pos hroom, ih (by omega) h, hpower]

/-- A number with a short decimal notation is turned into it, without zeros at the end. -/
theorem ofPower?_of_short {s n m k : Nat} (hs : s ≠ 0) (hn : 0 < n) (h : s * 10 ^ k = m * 2 ^ n)
    (hm : m < 2 ^ 52) (hk : k ≤ 28) :
    ∃ b places, ofPower? s (-(n : Int)) = some (b, places) ∧ b < 2 ^ 96 ∧ places ≤ 28 ∧
      b * 10 ^ k = m * 10 ^ places := by
  obtain ⟨o, r, hrn, hrk, hodd, rfl, rfl⟩ := exists_lowest_terms hs h
  have hle : o * 5 ^ r ≤ o * 5 ^ r * 10 ^ (k - r) := Nat.le_mul_of_pos_right _ (by positivity)
  have hfive : timesFive n (o * 2 ^ (n - r)) (-(n : Int)) = (o * 5 ^ r, -(r : Int)) := by
    have hsteps := timesFive_mul_two_pow (n - r) r o (-(n : Int))
    rw [Nat.sub_add_cancel hrn] at hsteps
    rw [hsteps, timesFive_of_odd hodd (by omega)]
    congr 1
    omega
  have hcut : cutMantissa r (o * 5 ^ r) = (o * 5 ^ r, r) := by
    cases r with
    | zero => rfl
    | succ r => rw [cutMantissa, if_neg (by omega)]
  have hpower : ofPower? (o * 2 ^ (n - r)) (-(n : Int)) = some (trimZeros (o * 5 ^ r) r) := by
    have hplaces : ¬ 28 < r := by omega
    simp [ofPower?, hn, hfive, timesTen, hplaces, hcut]
  have hplaces := trimZeros_places_le (o * 5 ^ r) r
  have hless := trimZeros_digits_le (o * 5 ^ r) r
  refine ⟨_, _, hpower, by omega, by omega, trimZeros_mul_pow_eq ?_⟩
  rw [mul_assoc _ (10 ^ (k - r)), ← pow_add, Nat.sub_add_cancel hrk]

theorem abs_value (d : Decimal) : |d.value| = d.mantissa / 10 ^ d.scale := by
  have hpos : (0 : Rat) < 10 ^ d.scale := by positivity
  rw [value, Rat.mkRat_eq_div, abs_div, ← Int.cast_abs, Int.abs_eq_natAbs, natAbs_signed]
  push_cast
  rw [abs_of_pos hpos]

/-- The decimal form of a double that is a short decimal number is that number. -/
theorem value_ofBinary64?_of_short {x : Binary64.Finite} {d : Decimal} (h : d.value = x.value)
    (hd : d.mantissa < 2 ^ 52) : (ofBinary64? (.finite x)).map value = some x.value := by
  rcases lt_or_ge x.exponent 0 with hneg | hnonneg
  · by_cases hzero : x.significand = 0
    · rw [ofBinary64?, if_pos hzero, value_ofParts?_zero (by decide),
        Binary64.Finite.value_eq_zero_iff.mpr hzero]
      simp
    obtain ⟨n, hn⟩ := Int.eq_ofNat_of_zero_le (a := -x.exponent) (by omega)
    have hexponent : x.exponent = -(n : Int) := by omega
    have habs : |x.value| = d.mantissa / 10 ^ d.scale := by rw [← h, d.abs_value]
    have hscaled : x.significand * 10 ^ d.scale = d.mantissa * 2 ^ n := by
      rw [Binary64.Finite.abs_value, hexponent, zpow_neg, zpow_natCast, ← div_eq_mul_inv,
        div_eq_div_iff (by positivity) (by positivity)] at habs
      exact_mod_cast habs
    obtain ⟨b, places, hpower, hb, hplaces, hdigits⟩ :=
      ofPower?_of_short hzero (by omega) hscaled hd d.scale_le
    have hvalue : (b / 10 ^ places : Rat) = |x.value| := by
      rw [habs, div_eq_div_iff (by positivity) (by positivity)]
      exact_mod_cast hdigits
    have hform : ofBinary64? (.finite x) = ofParts? x.negative b places := by
      rw [ofBinary64?, if_neg hzero, hexponent, hpower]
      rfl
    rw [hform, value_ofParts? hb hplaces, hvalue, ← x.value_eq_abs]
  · obtain ⟨n, hn⟩ := Int.eq_ofNat_of_zero_le hnonneg
    have hwhole : x.value = (x.signed * 2 ^ n : Int) := by
      rw [Binary64.Finite.value, hn]
      push_cast
      rw [zpow_natCast]
    rw [value_ofBinary64?_of_whole hwhole, if_pos (natAbs_lt_of_value (h.trans hwhole)), hwhole]

/-! ## From a decimal number -/

theorem nearest_value (x : Binary64.Finite) : nearest x.value = x.value := by
  rw [nearest, x.value?_ofRat_value, Option.getD_some]

theorem nearest_natCast {k : Nat} (h : k ≤ 2 ^ 53) : nearest k = k := by
  obtain ⟨x, hx⟩ := Binary64.exists_value_eq_natCast h
  rw [← hx, nearest_value]

/-- The powers of ten up to `10 ^ 22` are doubles, and so is every product on the way to them. -/
theorem power_exact {scale : Nat} (h : scale ≤ 22) :
    nearest (10 ^ scale : Nat) = (10 ^ scale : Nat) ∧
      powerNearest 5 1 10 scale = (10 ^ scale : Nat) := by
  revert h scale
  decide +kernel

theorem roundHalfUp_natCast (k : Nat) : roundHalfUp k = k := by
  have hfloor : (k + 1 / 2 : Rat).floor = k := by
    change ⌊(k + 1 / 2 : Rat)⌋ = k
    rw [Int.floor_natCast_add]
    norm_num
  rw [roundHalfUp, hfloor, Int.cast_natCast]

theorem exists_value_eq_fract {x : Binary64.Finite} (hx : 0 ≤ x.value) :
    ∃ y : Binary64.Finite, y.value = Int.fract x.value := by
  have hvalue : x.value = x.significand * 2 ^ x.exponent := by
    rw [← x.abs_value, abs_of_nonneg hx]
  rcases lt_or_ge x.exponent 0 with hneg | hnonneg
  · obtain ⟨n, hn⟩ := Int.eq_ofNat_of_zero_le (a := -x.exponent) (by omega)
    have hexponent : x.exponent = -(n : Int) := by omega
    have hleast := x.exponent_ge
    have hlt : x.significand % 2 ^ n < 2 ^ 53 :=
      (Nat.mod_le _ _).trans_lt x.significand_lt
    obtain ⟨y, hy⟩ := Binary64.exists_value_eq_scaled (e := -(n : Int)) hlt (by omega) (by omega)
    have hfract : Int.fract (x.significand / (2 ^ n : Nat) : Rat) =
        (x.significand % 2 ^ n : Nat) / (2 ^ n : Nat) :=
      Int.fract_div_natCast_eq_div_natCast_mod
    refine ⟨y, ?_⟩
    rw [hy, hvalue, hexponent, zpow_neg, zpow_natCast, ← div_eq_mul_inv, ← div_eq_mul_inv]
    push_cast at hfract
    rw [hfract]
  · obtain ⟨n, hn⟩ := Int.eq_ofNat_of_zero_le hnonneg
    obtain ⟨y, hy⟩ := Binary64.exists_value_eq_natCast (k := 0) (by decide)
    have hwhole : x.value = (x.significand * 2 ^ n : Nat) := by
      rw [hvalue, hn, zpow_natCast]
      push_cast
      rfl
    exact ⟨y, by rw [hy, hwhole, Int.fract_natCast, Nat.cast_zero]⟩

theorem value?_magnitudeToBinary64_of_short {m scale : Nat} {x : Binary64.Finite}
    (h : (m / (10 ^ scale : Nat) : Rat) = x.value) (hm : m < 2 ^ 52) (hscale : scale ≤ 22) :
    (magnitudeToBinary64 m scale).value? = some x.value := by
  obtain ⟨hpower, hstep⟩ := power_exact hscale
  have hm' : m ≤ 2 ^ 53 := by omega
  have hwhole : nearest (m / 10 ^ scale : Nat) = (m / 10 ^ scale : Nat) :=
    nearest_natCast ((Nat.div_le_self _ _).trans hm')
  have hrest : nearest (m % 10 ^ scale : Nat) = (m % 10 ^ scale : Nat) :=
    nearest_natCast ((Nat.mod_le _ _).trans hm')
  have hfract : ((m % 10 ^ scale : Nat) / (10 ^ scale : Nat) : Rat) = Int.fract x.value := by
    rw [← h, Int.fract_div_natCast_eq_div_natCast_mod]
  have hfraction : nearest ((m % 10 ^ scale : Nat) / (10 ^ scale : Nat)) = Int.fract x.value := by
    obtain ⟨y, hy⟩ := exists_value_eq_fract (x := x) (by rw [← h]; positivity)
    rw [hfract, ← hy, nearest_value]
  have hsum : ((m / 10 ^ scale : Nat) : Rat) + Int.fract x.value = x.value := by
    rw [← hfract, ← h, eq_div_iff (by positivity), add_mul, div_mul_cancel₀ _ (by positivity)]
    exact_mod_cast Nat.div_add_mod' m (10 ^ scale)
  rw [magnitudeToBinary64]
  simp only [hwhole, hrest, hpower, hfraction, hstep, hsum, nearest_value]
  split
  · next hzero =>
    rw [hzero, add_zero] at hsum
    rw [hsum, x.value?_ofRat_value]
  · have hproduct : x.value * (10 ^ scale : Nat) = m := by
      rw [← h, div_mul_cancel₀ _ (by positivity)]
    rw [hproduct, nearest_natCast hm', roundHalfUp_natCast, h, x.value?_ofRat_value]

/-- A short decimal number that is a double becomes that double. -/
theorem value?_toBinary64_of_short {d : Decimal} {x : Binary64.Finite} (h : d.value = x.value)
    (hd : d.mantissa < 2 ^ 52) (hscale : d.scale ≤ 22) : d.toBinary64.value? = some x.value := by
  rw [toBinary64]
  split
  · next hzero =>
    have hsigned : d.signed = x.value := by
      rw [← h, value, hzero, pow_zero, Rat.mkRat_one]
    rw [Binary64.ofInt, hsigned, x.value?_ofRat_value]
  · cases hnegative : d.negative with
    | false =>
        have hx : (d.mantissa / (10 ^ d.scale : Nat) : Rat) = x.value := by
          rw [← h, value, Rat.mkRat_eq_div, signed, hnegative]
          simp
        rw [if_neg Bool.false_ne_true, value?_magnitudeToBinary64_of_short hx hd hscale]
    | true =>
        obtain ⟨y, hy⟩ := x.exists_value_eq_neg
        have hyvalue : (d.mantissa / (10 ^ d.scale : Nat) : Rat) = y.value := by
          rw [hy, ← h, value, Rat.mkRat_eq_div, signed, hnegative]
          simp [neg_div]
        rw [if_pos rfl, Binary64.value?_neg, value?_magnitudeToBinary64_of_short hyvalue hd hscale,
          hy, Option.map_some, neg_neg]

end Decimal

end TableDiff
