import TableDiff.Proofs.Number.RoundingError

/-!
# Decimal numbers of fifteen digits

A decimal number with at most 15 digits and 22 places comes back from the double next to it: the
decimal form of that double is cut to a mantissa below `2 ^ 52`, and there both are the same whole
number.  This needs that the mantissa, followed by any number of zeros, is not between `4 · 10 ^ 15`
and `2 ^ 52`.  There the spacing of doubles is too wide for the rounding of the last digits.
-/

namespace TableDiff

namespace Decimal

/-! ## Dropping digits -/

theorem dropDigit_near (b : Nat) :
    (b / 10 : Rat) - 2 / 5 ≤ dropDigit b ∧ (dropDigit b : Rat) ≤ b / 10 + 1 / 2 := by
  have hscaled : b ≤ 10 * dropDigit b + 4 ∧ 10 * dropDigit b ≤ b + 5 := by
    rw [dropDigit]
    split <;> omega
  have hlower : (b : Rat) ≤ 10 * dropDigit b + 4 := by exact_mod_cast hscaled.1
  have hupper : (10 * dropDigit b : Rat) ≤ b + 5 := by exact_mod_cast hscaled.2
  constructor <;> linarith

/-- However many digits are dropped one by one, the result is less than one off. -/
theorem iterate_dropDigit_near (t b : Nat) :
    (b / 10 ^ t : Rat) - 4 / 9 < dropDigit^[t] b ∧
      (dropDigit^[t] b : Rat) < b / 10 ^ t + 5 / 9 := by
  induction t with
  | zero => constructor <;> norm_num
  | succ t ih =>
      obtain ⟨hlower, hupper⟩ := dropDigit_near (dropDigit^[t] b)
      rw [Function.iterate_succ_apply', pow_succ, ← div_div]
      constructor <;> linarith

theorem cutPlaces_eq_iterate {excess b : Nat} (h : 10 * 10 ^ excess ≤ b) :
    cutPlaces excess b = (dropDigit^[excess] b, 28) := by
  induction excess generalizing b with
  | zero => rfl
  | succ excess ih =>
      have hquotient : 10 * 10 ^ excess ≤ b / 10 := by
        rw [Nat.le_div_iff_mul_le (by decide)]
        exact (by ring : 10 * 10 ^ excess * 10 = 10 * 10 ^ (excess + 1)).trans_le h
      have hpos : 0 < 10 * 10 ^ excess := by positivity
      have hdrop : b / 10 ≤ dropDigit b := by
        rw [dropDigit]
        split <;> omega
      rw [cutPlaces, if_neg (by omega), ih (hquotient.trans hdrop), Function.iterate_succ_apply]

/-- What is left after `t` digits are dropped, and why as many as that. -/
structure Cut (b places t : Nat) : Prop where
  le : t ≤ places
  places_le : places - t ≤ 28
  short : places - t = 0 ∨ dropDigit^[t] b < 2 ^ 52
  needed : t = 0 ∨ places - t = 28 ∨ 2 ^ 52 ≤ dropDigit^[t - 1] b

theorem exists_cutMantissa_eq (places b : Nat) :
    ∃ t ≤ places, cutMantissa places b = (dropDigit^[t] b, places - t) ∧
      (places - t = 0 ∨ dropDigit^[t] b < 2 ^ 52) ∧ (t = 0 ∨ 2 ^ 52 ≤ dropDigit^[t - 1] b) := by
  induction places generalizing b with
  | zero => exact ⟨0, le_rfl, rfl, .inl rfl, .inl rfl⟩
  | succ places ih =>
      rw [cutMantissa]
      split
      · next hlong =>
        obtain ⟨t, hle, hcut, hshort, hneeded⟩ := ih (dropDigit b)
        refine ⟨t + 1, Nat.succ_le_succ hle, ?_, ?_, .inr ?_⟩
        · rw [hcut, Function.iterate_succ_apply, Nat.add_sub_add_right]
        · rwa [Function.iterate_succ_apply, Nat.add_sub_add_right]
        · cases t with
          | zero => exact hlong
          | succ t =>
              rw [Nat.add_sub_cancel, Function.iterate_succ_apply]
              exact hneeded.resolve_left t.succ_ne_zero
      · next hshort =>
        exact ⟨0, Nat.zero_le _, rfl, .inr (Nat.lt_of_not_le hshort), .inl rfl⟩

theorem exists_cut {b places : Nat} (h : 28 < places → 10 * 10 ^ (places - 28) ≤ b) :
    ∃ t, Cut b places t ∧
      (if 28 < places then cutMantissa (cutPlaces (places - 28) b).2 (cutPlaces (places - 28) b).1
        else cutMantissa places b) = (dropDigit^[t] b, places - t) := by
  split
  · next hlong =>
    rw [cutPlaces_eq_iterate (h hlong)]
    obtain ⟨t, hle, hcut, hshort, hneeded⟩ :=
      exists_cutMantissa_eq 28 (dropDigit^[places - 28] b)
    have hsum : places - (t + (places - 28)) = 28 - t := by omega
    rw [← Function.iterate_add_apply] at hcut hshort
    refine ⟨t + (places - 28), ⟨by omega, by omega, by rwa [hsum], ?_⟩, by rw [hcut, hsum]⟩
    cases t with
    | zero => exact .inr (.inl (by omega))
    | succ t =>
        have hprevious : t + 1 + (places - 28) - 1 = t + (places - 28) := by omega
        rw [← Function.iterate_add_apply] at hneeded
        exact .inr (.inr (hprevious ▸ hneeded.resolve_left t.succ_ne_zero))
  · next hfew =>
    obtain ⟨t, hle, hcut, hshort, hneeded⟩ := exists_cutMantissa_eq places b
    exact ⟨t, ⟨hle, by omega, hshort, hneeded.imp_right .inr⟩, hcut⟩

/-! ## The power of two traded for a power of ten -/

section

variable {b : Nat} (hroom : ¬ (b % 2 = 1 ∧ b * 5 < 2 ^ 96))

include hroom

theorem timesFive_half (n : Nat) (e : Int) :
    timesFive (n + 1) b e = timesFive n (b / 2) (e + 1) := by
  rw [timesFive]
  split_ifs with heven hfits
  · rfl
  · exact absurd ⟨by omega, hfits⟩ hroom
  · rfl

theorem sub_two_mul_half_le : (b : Rat) - 2 * (b / 2 : Nat) ≤ b / 2 ^ 93 := by
  rcases Nat.mod_two_eq_zero_or_one b with heven | hodd
  · have hexact : 2 * ((b / 2 : Nat) : Rat) = b := by exact_mod_cast (by omega)
    rw [hexact, sub_self]
    positivity
  · have hone : 2 * ((b / 2 : Nat) : Rat) + 1 = b := by exact_mod_cast (by omega)
    have hlarge : (2 ^ 93 : Rat) ≤ b := by exact_mod_cast (by omega : 2 ^ 93 ≤ b)
    rw [← hone, add_sub_cancel_left, hone]
    exact (one_le_div (by positivity)).mpr hlarge

end

/-- Each of the `n` steps loses at most one part in `2 ^ 93`. -/
theorem timesFive_near {b : Nat} (hb : b < 2 ^ 96) (n : Nat) (e : Int) :
    ∃ b' k : Nat, timesFive n b e = (b', e + k) ∧ k ≤ n ∧ (b' * 10 ^ k : Rat) ≤ b * 5 ^ n ∧
      (b * 5 ^ n - b' * 10 ^ k : Rat) ≤ n * (b * 5 ^ n / 2 ^ 93) := by
  induction n generalizing b e with
  | zero => exact ⟨b, 0, by simp [timesFive], le_rfl, by simp, by simp⟩
  | succ n ih =>
      by_cases hroom : b % 2 = 1 ∧ b * 5 < 2 ^ 96
      · obtain ⟨b', k, hstep, hle, hupper, hlower⟩ := ih hroom.2 e
        have hpower : ((b * 5 : Nat) : Rat) * 5 ^ n = b * 5 ^ (n + 1) := by
          push_cast
          ring
        rw [hpower] at hupper hlower
        refine ⟨b', k, ?_, hle.trans n.le_succ, hupper, hlower.trans ?_⟩
        · rw [timesFive, if_neg (by omega), if_pos hroom.2, hstep]
        · gcongr
          exact n.le_succ
      · obtain ⟨b', k, hstep, hle, hupper, hlower⟩ := ih (b := b / 2) (by omega) (e + 1)
        have hhalf : 2 * ((b / 2 : Nat) : Rat) ≤ b := by exact_mod_cast Nat.mul_div_le b 2
        have hloss := sub_two_mul_half_le hroom
        refine ⟨b', k + 1, ?_, Nat.succ_le_succ hle, ?_, ?_⟩
        · rw [timesFive_half hroom, hstep, Nat.cast_succ, add_assoc, add_comm 1 (k : Int)]
        · calc (b' * 10 ^ (k + 1) : Rat) = b' * 10 ^ k * 10 := by ring
            _ ≤ (b / 2 : Nat) * 5 ^ n * 10 := by gcongr
            _ = 2 * (b / 2 : Nat) * 5 ^ (n + 1) := by ring
            _ ≤ b * 5 ^ (n + 1) := by gcongr
        · calc (b * 5 ^ (n + 1) - b' * 10 ^ (k + 1) : Rat)
              = (b - 2 * (b / 2 : Nat)) * 5 ^ (n + 1) +
                  10 * ((b / 2 : Nat) * 5 ^ n - b' * 10 ^ k) := by ring
            _ ≤ b / 2 ^ 93 * 5 ^ (n + 1) + 10 * (n * ((b / 2 : Nat) * 5 ^ n / 2 ^ 93)) := by gcongr
            _ = b / 2 ^ 93 * 5 ^ (n + 1) + n * (2 * (b / 2 : Nat) * 5 ^ (n + 1) / 2 ^ 93) := by ring
            _ ≤ b / 2 ^ 93 * 5 ^ (n + 1) + n * (b * 5 ^ (n + 1) / 2 ^ 93) := by gcongr
            _ = (n + 1 : Nat) * (b * 5 ^ (n + 1) / 2 ^ 93) := by
              push_cast
              ring

/-! ## The digits that are left -/

/-- A whole number that is left below `2 ^ 52` is the one nearby. -/
theorem eq_of_near {c whole : Nat} {z : Rat} (hnear : |z - whole| ≤ whole / (9 * 10 ^ 15))
    (hlower : z - 4 / 9 < c) (hupper : (c : Rat) < z + 5 / 9) (hc : c < 2 ^ 52)
    (hwhole : 4 * 10 ^ 15 ≤ whole → 2 ^ 52 < whole) : c = whole := by
  obtain ⟨hbelow, habove⟩ := abs_le.mp hnear
  -- above `2 ^ 52` the digits left would not be below it; under `4 * 10 ^ 15` the error of the
  -- double is less than the `4 / 9` that dropping digits leaves to the next whole number
  have hsmall : whole < 4 * 10 ^ 15 := by
    by_contra hlarge
    have hc' : (c : Rat) + 1 ≤ 2 ^ 52 := by exact_mod_cast hc
    have hwhole' : (2 ^ 52 : Rat) + 1 ≤ whole := by
      exact_mod_cast hwhole (Nat.le_of_not_lt hlarge)
    linarith
  have hsmall' : (whole : Rat) < 4 * 10 ^ 15 := by exact_mod_cast hsmall
  exact eq_of_abs_sub_lt_one (abs_lt.mpr ⟨by linarith, by linarith⟩)

variable {b places t m scale : Nat}

theorem div_pow_eq {i : Nat} (hi : i ≤ places) :
    (b / 10 ^ i : Rat) = b / 10 ^ places * 10 ^ (places - i) := by
  rw [div_mul_eq_mul_div, div_eq_div_iff (by positivity) (by positivity), mul_assoc, ← pow_add,
    Nat.sub_add_cancel hi]

theorem div_pow_mul_pow_add (k i j : Nat) :
    (k / 10 ^ i * 10 ^ (i + j) : Rat) = (k * 10 ^ j : Nat) := by
  rw [pow_add, ← mul_assoc, div_mul_cancel₀ _ (by positivity)]
  push_cast
  rfl

section

variable (hcut : Cut b places t)
  (hnear : |(b / 10 ^ places : Rat) - m / 10 ^ scale| ≤ m / 10 ^ scale / (9 * 10 ^ 15))

include hnear

theorem near_mul_pow (i : Nat) :
    |(b / 10 ^ places : Rat) * 10 ^ i - m / 10 ^ scale * 10 ^ i| ≤
      m / 10 ^ scale * 10 ^ i / (9 * 10 ^ 15) :=
  calc |(b / 10 ^ places : Rat) * 10 ^ i - m / 10 ^ scale * 10 ^ i|
      = |(b / 10 ^ places : Rat) - m / 10 ^ scale| * 10 ^ i := by
        rw [← sub_mul, abs_mul, abs_of_pos (by positivity : (0 : Rat) < 10 ^ i)]
    _ ≤ m / 10 ^ scale / (9 * 10 ^ 15) * 10 ^ i := by gcongr
    _ = m / 10 ^ scale * 10 ^ i / (9 * 10 ^ 15) := by ring

include hcut

/-- Digits are dropped only as long as more places than those of the decimal number are left. -/
theorem Cut.eq_zero_of_few (hm : m < 10 ^ 15) (hscale : scale ≤ 22) (hfew : places - t < scale) :
    t = 0 := by
  by_contra hne
  have hle := hcut.le
  have hneeded := (hcut.needed.resolve_left hne).resolve_left (by omega)
  have hlong : (2 ^ 52 : Rat) ≤ dropDigit^[t - 1] b := by exact_mod_cast hneeded
  have hm' : (m : Rat) < 10 ^ 15 := by exact_mod_cast hm
  have hvalue : (m / 10 ^ scale * 10 ^ scale : Rat) = m := div_mul_cancel₀ _ (by positivity)
  have hpower : (b / 10 ^ (t - 1) : Rat) ≤ b / 10 ^ places * 10 ^ scale := by
    rw [div_pow_eq (by omega : t - 1 ≤ places)]
    gcongr
    · norm_num
    · omega
  obtain ⟨-, hprevious⟩ := iterate_dropDigit_near (t - 1) b
  obtain ⟨-, habove⟩ := abs_le.mp (near_mul_pow hnear scale)
  linarith

/-- A number close to a short decimal number is cut to the digits of that. -/
theorem Cut.digits_eq (hm : m < 10 ^ 15) (hpos : 0 < scale) (hscale : scale ≤ 22)
    (hdigits : ∀ j, 4 * 10 ^ 15 ≤ m * 10 ^ j → 2 ^ 52 < m * 10 ^ j) :
    dropDigit^[t] b * 10 ^ scale = m * 10 ^ (places - t) := by
  rcases lt_or_ge (places - t) scale with hfew | hmany
  · obtain rfl := hcut.eq_zero_of_few hnear hm hscale hfew
    obtain ⟨i, rfl⟩ := Nat.exists_eq_add_of_le hfew.le
    have hm' : (m : Rat) < 10 ^ 15 := by exact_mod_cast hm
    have hnear' := near_mul_pow hnear (places + i)
    rw [div_pow_mul_pow_add, Nat.sub_zero, div_mul_cancel₀ _ (by positivity)] at hnear'
    obtain rfl : b * 10 ^ i = m := eq_of_abs_sub_lt_one (hnear'.trans_lt (by linarith))
    rw [Function.iterate_zero_apply, Nat.sub_zero, pow_add]
    ring
  · obtain ⟨j, hj⟩ := Nat.exists_eq_add_of_le hmany
    have hnear' := near_mul_pow hnear (places - t)
    rw [← div_pow_eq hcut.le, hj, div_pow_mul_pow_add] at hnear'
    obtain ⟨hlower, hupper⟩ := iterate_dropDigit_near t b
    have hshort := hcut.short.resolve_left (by omega)
    rw [eq_of_near hnear' hlower hupper hshort (hdigits j), hj, pow_add]
    ring

end

/-! ## There and back -/

theorem ofPower?_eq {s n : Nat} (hs : s < 2 ^ 96) (hn : 0 < n) :
    ∃ b places : Nat, (b / 10 ^ places : Rat) ≤ s / 2 ^ n ∧
      (s / 2 ^ n - b / 10 ^ places : Rat) ≤ n * (s / 2 ^ n / 2 ^ 93) ∧
      ((28 < places → 10 * 10 ^ (places - 28) ≤ b) → ∃ t, Cut b places t ∧
        ofPower? s (-(n : Int)) = some (trimZeros (dropDigit^[t] b) (places - t))) := by
  obtain ⟨b, k, hfive, hk, hupper, hlower⟩ := timesFive_near hs n (-(n : Int))
  have hplaces : (b / 10 ^ (n - k) : Rat) = b * 10 ^ k / 10 ^ n := by
    rw [div_eq_div_iff (by positivity) (by positivity), mul_assoc, ← pow_add,
      Nat.add_sub_cancel' hk]
  have hten : (s / 2 ^ n : Rat) = s * 5 ^ n / 10 ^ n := by
    rw [div_eq_div_iff (by positivity) (by positivity), mul_assoc, ← mul_pow]
    norm_num
  refine ⟨b, n - k, ?_, ?_, ?_⟩
  · rw [hplaces, hten]
    gcongr
  · rw [hplaces, hten, ← sub_div]
    calc (s * 5 ^ n - b * 10 ^ k : Rat) / 10 ^ n ≤ n * (s * 5 ^ n / 2 ^ 93) / 10 ^ n := by gcongr
      _ = n * (s * 5 ^ n / 10 ^ n / 2 ^ 93) := by ring
  · intro hlarge
    obtain ⟨t, hcut, heq⟩ := exists_cut hlarge
    refine ⟨t, hcut, ?_⟩
    have hexponent : -(n : Int) + k = -((n - k : Nat) : Int) := by omega
    have hzero : (-((n - k : Nat) : Int)).toNat = 0 := by omega
    rw [ofPower?, if_pos (by omega), Int.neg_neg, Int.toNat_natCast, hfive, hexponent]
    simp only [Option.pure_def, Option.bind_eq_bind, Option.bind_some, hzero, timesTen, Int.neg_neg,
      Int.toNat_natCast]
    split at heq
    · next hlong => rw [if_pos hlong, heq]
    · next hfew => rw [if_neg hfew, heq]

/-- The double next to a short decimal number is turned into that number. -/
theorem ofPower?_of_near {x : Binary64.Finite} (hsign : x.negative = false)
    (hnear : |x.value - m / 10 ^ scale| ≤ m / 10 ^ scale / 2 ^ 53) (hzero : 0 < m)
    (hm : m < 10 ^ 15) (hpos : 0 < scale) (hscale : scale ≤ 22)
    (hdigits : ∀ j, 4 * 10 ^ 15 ≤ m * 10 ^ j → 2 ^ 52 < m * 10 ^ j) :
    ∃ b places, ofPower? x.significand x.exponent = some (b, places) ∧ b < 2 ^ 96 ∧
      places ≤ 28 ∧ b * 10 ^ scale = m * 10 ^ places := by
  obtain ⟨hlow, hhigh⟩ := bounds_of_fifteen_digits hzero hm hscale
  obtain ⟨hbelow, habove⟩ := abs_le.mp hnear
  rw [Binary64.Finite.value_eq_of_negative_eq_false hsign] at hbelow habove
  have hneg : x.exponent < 0 := by
    by_contra hnonneg
    have hsignificand : (2 ^ 52 : Rat) ≤ x.significand := by
      exact_mod_cast x.normal.resolve_right (by omega)
    have hpower : (1 : Rat) ≤ 2 ^ x.exponent := one_le_zpow₀ (by norm_num) (by omega)
    nlinarith
  obtain ⟨n, hn⟩ := Int.eq_ofNat_of_zero_le (a := -x.exponent) (by omega)
  have hexponent : x.exponent = -(n : Int) := by omega
  have hleast := x.exponent_ge
  have hn' : (n : Rat) ≤ 1074 := by exact_mod_cast (by omega : n ≤ 1074)
  rw [hexponent, zpow_neg, zpow_natCast, ← div_eq_mul_inv] at hbelow habove
  rw [hexponent]
  obtain ⟨b, places, hupper, hlower, hpower⟩ :=
    ofPower?_eq (s := x.significand) (n := n) (x.significand_lt.trans (by decide)) (by omega)
  generalize (x.significand / 2 ^ n : Rat) = y at *
  have hloss : (n * (y / 2 ^ 93) : Rat) ≤ 1074 * (y / 2 ^ 93) := by
    gcongr
    linarith
  have hb : (1 / 10 ^ 27 : Rat) ≤ b / 10 ^ places := by linarith
  have hlong : 28 < places → 10 * 10 ^ (places - 28) ≤ b := by
    intro hplaces
    rw [div_le_div_iff₀ (by positivity) (by positivity), one_mul] at hb
    have hb' : 10 ^ places ≤ b * 10 ^ 27 := by exact_mod_cast hb
    have hpower : 10 * 10 ^ (places - 28) * 10 ^ 27 = 10 ^ places := by
      rw [← pow_succ', ← pow_add]
      congr 1
      omega
    rw [← hpower] at hb'
    exact Nat.le_of_mul_le_mul_right hb' (by positivity)
  obtain ⟨t, hcut, heq⟩ := hpower hlong
  have hb' : |(b / 10 ^ places : Rat) - m / 10 ^ scale| ≤ m / 10 ^ scale / (9 * 10 ^ 15) :=
    abs_le.mpr ⟨by linarith, by linarith⟩
  have hcutdigits := hcut.digits_eq hb' hm hpos hscale hdigits
  have hfits : dropDigit^[t] b < 2 ^ 96 := by
    rcases hcut.short with hwhole | hshort
    · have hle : dropDigit^[t] b ≤ dropDigit^[t] b * 10 ^ scale :=
        Nat.le_mul_of_pos_right _ (by positivity)
      rw [hcutdigits, hwhole] at hle
      omega
    · omega
  exact ⟨_, _, heq, (trimZeros_digits_le _ _).trans_lt hfits,
    (trimZeros_places_le _ _).trans hcut.places_le, trimZeros_mul_pow_eq hcutdigits⟩

/-- A decimal number of fifteen digits is the decimal form of the double it becomes. -/
theorem value_ofBinary64?_toBinary64 {d : Decimal} (hzero : 0 < d.mantissa)
    (hd : d.mantissa < 10 ^ 15) (hpos : 0 < d.scale) (hscale : d.scale ≤ 22)
    (hdigits : ∀ j, 4 * 10 ^ 15 ≤ d.mantissa * 10 ^ j → 2 ^ 52 < d.mantissa * 10 ^ j) :
    (ofBinary64? d.toBinary64).map value = some d.value := by
  obtain ⟨hlow, hhigh⟩ := bounds_of_fifteen_digits hzero hd hscale
  obtain ⟨x, hx, hsign, hnear⟩ :=
    Binary64.ofRat_near (q := d.mantissa / 10 ^ d.scale) (by linarith) (by linarith)
  obtain ⟨b, places, hpower, hb, hplaces, hvalue⟩ :=
    ofPower?_of_near hsign hnear hzero hd hpos hscale hdigits
  have hne : x.significand ≠ 0 := by
    intro hsignificand
    rw [Binary64.Finite.value_eq_zero_iff.mpr hsignificand, zero_sub, abs_neg] at hnear
    have hle := (le_abs_self _).trans hnear
    linarith
  have hform : d.toBinary64 = .finite { x with negative := d.negative } := by
    rw [toBinary64, if_neg hpos.ne', magnitudeToBinary64_eq hzero hd hscale, hx]
    obtain ⟨negative, significand, exponent, _, _, _, _⟩ := x
    obtain rfl : negative = false := hsign
    cases d.negative <;> rfl
  have hdigits : (b / 10 ^ places : Rat) = d.mantissa / 10 ^ d.scale := by
    rw [div_eq_div_iff (by positivity) (by positivity)]
    exact_mod_cast hvalue
  rw [hform, ofBinary64?, if_neg hne, hpower]
  change (ofParts? d.negative b places).map value = some d.value
  rw [value_ofParts? hb hplaces, hdigits, value, Rat.mkRat_eq_div, signed]
  cases d.negative <;> simp [neg_div]

end Decimal

end TableDiff
