import TableDiff.Literal.Conversion
import Mathlib.Tactic

/-!
# Equal and equivalent literals

Equality of literals compares a few integers and a text, so it is an equivalence relation.  Relaxed
equivalence adds the pairs of numbers with the same decimal form.  It is an equivalence relation as
well, because equal numbers have the same decimal form: a finite double is determined by its value
up to the sign of a zero.
-/

namespace TableDiff

namespace Binary64

theorem Finite.exponent_le_of_magnitude_eq
    {x y : Finite}
    (h : x.significand * 2 ^ (x.exponent + 1074).toNat =
      y.significand * 2 ^ (y.exponent + 1074).toNat) :
    y.exponent ≤ x.exponent := by
  by_contra hlt
  push Not at hlt
  have hx := x.exponent_ge
  -- the higher exponent is not the least one, so its significand has all its digits
  have hfull : 2 ^ 52 ≤ y.significand := y.normal.resolve_right (by omega)
  obtain ⟨k, hk⟩ : ∃ k, (y.exponent + 1074).toNat =
      (x.exponent + 1074).toNat + (k + 1) :=
    ⟨(y.exponent - x.exponent).toNat - 1, by omega⟩
  rw [hk, pow_add, ← mul_assoc, mul_right_comm] at h
  have hsignificand : x.significand = y.significand * 2 ^ (k + 1) :=
    Nat.eq_of_mul_eq_mul_right (Nat.two_pow_pos _) h
  have hpow : 2 ≤ 2 ^ (k + 1) := by
    rw [pow_succ]
    have := Nat.two_pow_pos k
    omega
  have hge : y.significand * 2 ≤ y.significand * 2 ^ (k + 1) :=
    Nat.mul_le_mul_left _ hpow
  have hlt := x.significand_lt
  omega

theorem Finite.natAbs_units (x : Finite) :
    x.units.natAbs = x.significand * 2 ^ (x.exponent + 1074).toNat := by
  rw [units, Int.natAbs_mul, Int.natAbs_pow]
  congr 1
  unfold signed
  split <;> simp

/-- Doubles of one value have the same digits, and the same sign unless they are zero. -/
theorem Finite.eq_of_units_eq
    {x y : Finite} (h : x.units = y.units) :
    x.significand = y.significand ∧ x.exponent = y.exponent ∧
      (x.significand ≠ 0 → x.negative = y.negative) := by
  have hmagnitude : x.significand * 2 ^ (x.exponent + 1074).toNat =
      y.significand * 2 ^ (y.exponent + 1074).toNat := by
    rw [← natAbs_units, ← natAbs_units, h]
  have hexponent : x.exponent = y.exponent :=
    le_antisymm (exponent_le_of_magnitude_eq hmagnitude.symm)
      (exponent_le_of_magnitude_eq hmagnitude)
  have hsignificand : x.significand = y.significand := by
    rw [hexponent] at hmagnitude
    exact Nat.eq_of_mul_eq_mul_right (Nat.two_pow_pos _) hmagnitude
  refine ⟨hsignificand, hexponent, ?_⟩
  intro hne
  have hsigned : x.signed = y.signed := by
    rw [units, units, hexponent] at h
    exact Int.eq_of_mul_eq_mul_right (pow_ne_zero _ two_ne_zero) h
  unfold signed at hsigned
  cases hx : x.negative <;> cases hy : y.negative <;>
    simp [hx, hy] at hsigned ⊢ <;> omega

@[simp] theorem compare_eq_eq_iff {x y : Binary64} :
    Ord.compare x y = .eq ↔ x.level = y.level ∧ x.units = y.units := by
  change x.compare y = .eq ↔ _
  simp [compare, Ordering.then_eq_eq]

end Binary64

@[simp] theorem Date.compare_eq_eq_iff {a b : Date} :
    Ord.compare a b = .eq ↔
      a.year = b.year ∧ a.month = b.month ∧ a.day = b.day := by
  change a.compare b = .eq ↔ _
  simp [Date.compare, Ordering.then_eq_eq]

@[simp] theorem DateTime.compare_eq_eq_iff {a b : DateTime} :
    Ord.compare a b = .eq ↔ Ord.compare a.date b.date = .eq ∧
      a.secondOfDay = b.secondOfDay ∧ a.nanosecond = b.nanosecond := by
  change a.compare b = .eq ↔ _
  simp [DateTime.compare, Ordering.then_eq_eq]

namespace Decimal

@[simp] theorem compare_eq_eq_iff {a b : Decimal} :
    Ord.compare a b = .eq ↔ a.units = b.units := by
  change a.compare b = .eq ↔ _
  simp [compare]

theorem units_ofParts?_zero (negative : Bool) :
    (ofParts? negative 0 0).map units = some 0 := by
  cases negative <;> rfl

theorem units_of_ofInt? {n : Int} {d : Decimal} (h : ofInt? n = some d) :
    d.units = n * 10 ^ 28 := by
  unfold ofInt? ofParts? at h
  split at h
  · cases h
    by_cases hnegative : n < 0
    · have habs : (n.natAbs : Int) = -n := by omega
      simp [units, signed, hnegative, habs]
    · have habs : (n.natAbs : Int) = n := by omega
      simp [units, signed, hnegative, habs]
  · cases h

theorem units_ofBinary64?_congr
    {x y : Binary64} (h : Ord.compare x y = .eq) :
    (ofBinary64? x).map units = (ofBinary64? y).map units := by
  rcases Binary64.compare_eq_eq_iff.mp h with ⟨hlevel, hunits⟩
  cases x with
  | nan =>
      cases y with
      | nan => rfl
      | infinite negative => cases negative <;> simp [Binary64.level] at hlevel
      | finite y => simp [Binary64.level] at hlevel
  | infinite negative =>
      cases y with
      | nan => rfl
      | infinite _ => rfl
      | finite y => cases negative <;> simp [Binary64.level] at hlevel
  | finite x =>
      cases y with
      | nan => simp [Binary64.level] at hlevel
      | infinite negative => cases negative <;> simp [Binary64.level] at hlevel
      | finite y =>
          obtain ⟨hsignificand, hexponent, hnegative⟩ :=
            Binary64.Finite.eq_of_units_eq (x := x) (y := y) hunits
          by_cases hzero : x.significand = 0
          · have hzero' : y.significand = 0 := hsignificand ▸ hzero
            simp only [ofBinary64?, hzero, hzero', if_true,
              units_ofParts?_zero]
          · simp only [ofBinary64?, ← hsignificand, ← hexponent,
              ← hnegative hzero]

end Decimal

namespace Literal

/-- What the order of literals looks at. -/
def orderKey : Literal → DataType × List Int × String
  | integer n => (.integer, [n.toInt], "")
  | long n => (.long, [n.toInt], "")
  | float x => (.float, [x.level, x.units], "")
  | boolean b => (.boolean, [b.toNat], "")
  | string s => (.string, [], s)
  | date d => (.date, [d.year, d.month, d.day], "")
  | dateTime t =>
    (.dateTime,
      [t.date.year, t.date.month, t.date.day, t.secondOfDay, t.nanosecond], "")
  | decimal d => (.decimal, [d.units], "")

theorem beq_iff_orderKey_eq (a b : Literal) :
    (a == b) = true ↔ a.orderKey = b.orderKey := by
  rw [beq_def, beq_iff_eq]
  cases a <;> cases b <;>
    simp [Literal.compare, orderKey, DataType.rank, dataType, and_assoc]

instance : EquivBEq Literal := equivBEq_of_iff_apply_eq orderKey beq_iff_orderKey_eq

theorem dataType_eq_of_beq {a b : Literal} (h : (a == b) = true) : a.dataType = b.dataType := by
  have hkey (v : Literal) : v.orderKey.1 = v.dataType := by cases v <;> rfl
  rw [← hkey, ← hkey, (beq_iff_orderKey_eq a b).mp h]

/-- The value of the decimal form of a number, where it has one. -/
def decimalUnits? (v : Literal) : Option Int := v.toDecimal?.map Decimal.units

/-- Equal literals have decimal forms of the same value, or none of them has one. -/
theorem decimalUnits?_congr {a b : Literal} (h : (a == b) = true) :
    a.decimalUnits? = b.decimalUnits? := by
  rw [beq_def, beq_iff_eq] at h
  cases a <;> cases b <;>
    simp [Literal.compare, DataType.rank, dataType, -Binary64.compare_eq_eq_iff] at h <;>
    simp [decimalUnits?, toDecimal?, h]
  exact Decimal.units_ofBinary64?_congr h

theorem isNumeric_of_decimalUnits? {a : Literal} {u : Int} (h : a.decimalUnits? = some u) :
    a.dataType.isNumeric = true := by
  cases a with
  | integer n => rfl
  | long n => rfl
  | float x => rfl
  | decimal d => rfl
  | boolean b => cases h
  | string s => cases h
  | date d => cases h
  | dateTime t => cases h

theorem equivalent_strict_iff {a b : Literal} :
    a.equivalent b .strict = true ↔ (a == b) = true := by
  simp [equivalent]

theorem equivalent_relaxed_iff {a b : Literal} :
    a.equivalent b .relaxed = true ↔
      (a == b) = true ∨ ∃ u, a.decimalUnits? = some u ∧ b.decimalUnits? = some u := by
  rw [equivalent, Bool.or_eq_true]
  apply or_congr_right
  constructor
  · intro h
    rw [Bool.and_eq_true] at h
    split at h
    · next x y hx hy =>
      have hunits : x.units = y.units := by simpa [Decimal.compare] using h.2
      exact ⟨y.units, by simp [decimalUnits?, hx, hunits], by simp [decimalUnits?, hy]⟩
    · simp at h
  · rintro ⟨u, ha, hb⟩
    have hanumeric := isNumeric_of_decimalUnits? ha
    have hbnumeric := isNumeric_of_decimalUnits? hb
    rcases Option.map_eq_some_iff.mp ha with ⟨x, hx, rfl⟩
    rcases Option.map_eq_some_iff.mp hb with ⟨y, hy, hunits⟩
    simp [hanumeric, hbnumeric, hx, hy, hunits, Decimal.compare]

/-- Numbers of different types are compared through their decimal forms only. -/
theorem equivalent_relaxed_iff_of_dataType_ne {a b : Literal} (h : a.dataType ≠ b.dataType) :
    a.equivalent b .relaxed = true ↔ ∃ u, a.decimalUnits? = some u ∧ b.decimalUnits? = some u := by
  rw [equivalent_relaxed_iff, or_iff_right (mt dataType_eq_of_beq h)]

/-- A number that is no double is determined by its type and its decimal form. -/
theorem orderKey_of_decimalUnits? {a : Literal} {u : Int}
    (h : a.decimalUnits? = some u) (htype : a.dataType ≠ .float) :
    a.orderKey = (a.dataType, [if a.dataType = .decimal then u else u / 10 ^ 28], "") := by
  obtain ⟨d, hd, rfl⟩ := Option.map_eq_some_iff.mp h
  cases a with
  | integer n => simp [orderKey, dataType, Decimal.units_of_ofInt? hd]
  | long n => simp [orderKey, dataType, Decimal.units_of_ofInt? hd]
  | float x => exact absurd rfl htype
  | decimal d' =>
      cases hd
      simp [orderKey, dataType]
  | boolean b => cases hd
  | string s => cases hd
  | date d' => cases hd
  | dateTime t => cases hd

/-- Within one type, relaxed equivalence is equality, doubles apart. -/
theorem beq_of_equivalent_relaxed {a b : Literal} (h : a.equivalent b .relaxed = true)
    (hsame : a.dataType = b.dataType) (htype : a.dataType ≠ .float) : (a == b) = true := by
  rcases equivalent_relaxed_iff.mp h with heq | ⟨u, ha, hb⟩
  · exact heq
  · rw [beq_iff_orderKey_eq, orderKey_of_decimalUnits? ha htype,
      orderKey_of_decimalUnits? hb (hsame ▸ htype), hsame]

/-! ## Equivalence under a conversion mode -/

variable {a b c : Literal} {mode : ConversionMode}

theorem equivalent_refl (a : Literal) (mode : ConversionMode) :
    a.equivalent a mode = true := by
  simp [equivalent]

theorem equivalent_symm (h : a.equivalent b mode = true) :
    b.equivalent a mode = true := by
  cases mode with
  | strict =>
      rw [equivalent_strict_iff] at h ⊢
      exact BEq.symm h
  | relaxed =>
      rw [equivalent_relaxed_iff] at h ⊢
      rcases h with heq | ⟨u, ha, hb⟩
      · exact .inl (BEq.symm heq)
      · exact .inr ⟨u, hb, ha⟩

theorem equivalent_trans
    (hab : a.equivalent b mode = true) (hbc : b.equivalent c mode = true) :
    a.equivalent c mode = true := by
  cases mode with
  | strict =>
      rw [equivalent_strict_iff] at hab hbc ⊢
      exact BEq.trans hab hbc
  | relaxed =>
      rw [equivalent_relaxed_iff] at hab hbc ⊢
      rcases hab with heq | ⟨u, ha, hb⟩
      · rcases hbc with heq' | ⟨u, hb, hc⟩
        · exact .inl (BEq.trans heq heq')
        · exact .inr ⟨u, (decimalUnits?_congr heq).trans hb, hc⟩
      · rcases hbc with heq' | ⟨u', hb', hc⟩
        · exact .inr ⟨u, ha, (decimalUnits?_congr heq').symm.trans hb⟩
        · obtain rfl : u = u' := Option.some.inj (hb.symm.trans hb')
          exact .inr ⟨u, ha, hc⟩

theorem equivalent_relaxed_of_strict (h : a.equivalent b .strict = true) :
    a.equivalent b .relaxed = true :=
  equivalent_relaxed_iff.mpr (.inl (equivalent_strict_iff.mp h))

theorem equivalent_congr_right (h : b.equivalent c mode = true) :
    a.equivalent b mode = a.equivalent c mode := by
  rw [Bool.eq_iff_iff]
  constructor
  · intro hab
    exact equivalent_trans hab h
  · intro hac
    exact equivalent_trans hac (equivalent_symm h)

end Literal

end TableDiff
