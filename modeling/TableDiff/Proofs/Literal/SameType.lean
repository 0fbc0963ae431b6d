import TableDiff.Proofs.Literal.Equivalence
import TableDiff.Proofs.Number.ShortDecimals
import TableDiff.Proofs.Table

/-!
# Relaxed equivalence within one type

Relaxed conversion is meant for literals of different types, which are compared through their
decimal forms.  Two doubles are compared in this way as well, so that two different doubles are
equivalent if their decimal forms are rounded to one number.  This does not happen between doubles
that are whole numbers or have a short decimal notation, and not in any other type.
-/

namespace TableDiff

/-- A whole number, or one that is a decimal number below `2 ^ 52` without its point. -/
def Binary64.Finite.IsPlain (x : Binary64.Finite) : Prop :=
  (∃ m : Int, x.value = m) ∨ ∃ d : Decimal, d.mantissa < 2 ^ 52 ∧ d.value = x.value

theorem Binary64.Finite.IsPlain.value_of_ofBinary64? {x : Binary64.Finite} (h : x.IsPlain)
    {d : Decimal} (hd : Decimal.ofBinary64? (.finite x) = some d) : d.value = x.value := by
  rcases h with ⟨m, hm⟩ | ⟨short, hlt, hshort⟩
  · have hform := Decimal.value_ofBinary64?_of_whole hm
    rw [hd, Option.map_some] at hform
    split at hform
    · rw [Option.some.inj hform, hm]
    · cases hform
  · have hform := Decimal.value_ofBinary64?_of_short hshort hlt
    rw [hd, Option.map_some] at hform
    exact Option.some.inj hform

namespace Literal

variable {a b : Literal}

/-- The decimal forms of two numbers are equal. -/
def SameDecimalForm (a b : Literal) : Prop :=
  ∃ d d', a.toDecimal? = some d ∧ b.toDecimal? = some d' ∧ d.value = d'.value

/-- Two different doubles that have one decimal form. -/
def Confused (a b : Literal) : Prop :=
  a.dataType = .float ∧ b.dataType = .float ∧ (a == b) = false ∧ a.SameDecimalForm b

theorem exists_decimalUnits?_iff :
    (∃ u, a.decimalUnits? = some u ∧ b.decimalUnits? = some u) ↔ a.SameDecimalForm b := by
  simp only [SameDecimalForm, decimalUnits?, Option.map_eq_some_iff, Decimal.value_eq_value_iff]
  constructor
  · rintro ⟨_, ⟨d, hd, rfl⟩, d', hd', hunits⟩
    exact ⟨d, d', hd, hd', hunits.symm⟩
  · rintro ⟨d, d', hd, hd', hunits⟩
    exact ⟨_, ⟨d, hd, rfl⟩, d', hd', hunits.symm⟩

theorem equivalent_iff_of_dataType_eq (hsame : a.dataType = b.dataType) :
    a.equivalent b .relaxed = true ↔ (a == b) = true ∨ a.Confused b := by
  by_cases htype : a.dataType = .float
  · rw [equivalent_relaxed_iff, exists_decimalUnits?_iff]
    cases heq : a == b with
    | false => simp [Confused, htype, hsame ▸ htype, heq]
    | true => simp
  · constructor
    · intro h
      exact .inl (beq_of_equivalent_relaxed h hsame htype)
    · rintro (heq | ⟨hfloat, -⟩)
      · exact equivalent_relaxed_iff.mpr (.inl heq)
      · exact absurd hfloat htype

theorem equivalent_iff_of_dataType_ne (hne : a.dataType ≠ b.dataType) :
    a.equivalent b .relaxed = true ↔
      a.dataType.isNumeric = true ∧ b.dataType.isNumeric = true ∧ a.SameDecimalForm b := by
  rw [equivalent_relaxed_iff_of_dataType_ne hne, ← exists_decimalUnits?_iff]
  constructor
  · rintro ⟨u, ha, hb⟩
    exact ⟨isNumeric_of_decimalUnits? ha, isNumeric_of_decimalUnits? hb, u, ha, hb⟩
  · rintro ⟨-, -, h⟩
    exact h

/-- Plain doubles keep their value in their decimal form, which tells them apart. -/
theorem not_confused_of_isPlain {x y : Binary64.Finite} (hx : x.IsPlain) (hy : y.IsPlain) :
    ¬ (float (.finite x)).Confused (float (.finite y)) := by
  rintro ⟨-, -, hne, d, d', hd, hd', hvalue⟩
  have hsame : x.value = y.value := by
    rw [← hx.value_of_ofBinary64? hd, ← hy.value_of_ofBinary64? hd', hvalue]
  refine Bool.eq_false_iff.mp hne ((beq_iff_orderKey_eq _ _).mpr ?_)
  simp [orderKey, Binary64.level, Binary64.units, Binary64.Finite.value_eq_value_iff.mp hsame]

/-- Within one type relaxed equivalence is equality unless two doubles are confused, and these are
not both plain.  Literals of different types are compared by decimal form. -/
theorem equivalent_within_type (a b : Literal) :
    (a.dataType = b.dataType →
      ((a.equivalent b .relaxed = true ↔ (a == b) = true) ↔ ¬ a.Confused b)) ∧
    (∀ x y : Binary64.Finite, a = float (.finite x) → b = float (.finite y) →
      x.IsPlain → y.IsPlain → ¬ a.Confused b) ∧
    (a.dataType ≠ b.dataType →
      (a.equivalent b .relaxed = true ↔
        a.dataType.isNumeric = true ∧ b.dataType.isNumeric = true ∧ a.SameDecimalForm b)) := by
  refine ⟨?_, ?_, equivalent_iff_of_dataType_ne⟩
  · intro hsame
    rw [equivalent_iff_of_dataType_eq hsame, or_iff_left_iff_imp]
    constructor
    · intro himp hconfused
      exact Bool.eq_false_iff.mp hconfused.2.2.1 (himp hconfused)
    · intro hnot hconfused
      exact absurd hconfused hnot
  · rintro x y rfl rfl
    exact not_confused_of_isPlain

/-- The double `0.5` is told apart from the double `2`, and this is equivalent to the integer. -/
theorem equivalent_within_type_halfTwo :
    ((float (.finite ⟨false, 2 ^ 52, -53, by decide, by decide, by decide, by decide⟩)).equivalent
        (float (.finite ⟨false, 2 ^ 52, -51, by decide, by decide, by decide, by decide⟩))
        .relaxed = true ↔
      (float (.finite ⟨false, 2 ^ 52, -53, by decide, by decide, by decide, by decide⟩) ==
        float (.finite ⟨false, 2 ^ 52, -51, by decide, by decide, by decide, by decide⟩)) = true) ∧
    (integer 2).equivalent
      (float (.finite ⟨false, 2 ^ 52, -51, by decide, by decide, by decide, by decide⟩))
      .relaxed = true := by
  obtain ⟨hsame, hplain, -⟩ := equivalent_within_type
    (float (.finite ⟨false, 2 ^ 52, -53, by decide, by decide, by decide, by decide⟩))
    (float (.finite ⟨false, 2 ^ 52, -51, by decide, by decide, by decide, by decide⟩))
  obtain ⟨-, -, hdifferent⟩ := equivalent_within_type (integer 2)
    (float (.finite ⟨false, 2 ^ 52, -51, by decide, by decide, by decide, by decide⟩))
  refine ⟨(hsame rfl).mpr (hplain _ _ rfl rfl (.inr ?_) (.inl ?_)),
    (hdifferent (by decide)).mpr ⟨rfl, rfl, ?_⟩⟩
  · exact ⟨⟨false, 5, 1, by decide, by decide⟩, by decide, by decide +kernel⟩
  · exact ⟨2, by decide +kernel⟩
  · exact ⟨⟨false, 2, 0, by decide, by decide⟩, ⟨false, 2, 0, by decide, by decide⟩,
      by decide +kernel, by decide +kernel, rfl⟩

/-- The doubles `0.3` and `0.30000000000000004` are different and equivalent, and so are two
doubles far below the finest decimal step. -/
theorem equivalent_confuses_doubles :
    ((float (Binary64.ofBits 0x3fd3333333333333) == float (Binary64.ofBits 0x3fd3333333333334))
        = false ∧
      (float (Binary64.ofBits 0x3fd3333333333333)).equivalent
        (float (Binary64.ofBits 0x3fd3333333333334)) .relaxed = true) ∧
    (float (Binary64.ofBits 1) == float (Binary64.ofBits 2)) = false ∧
      (float (Binary64.ofBits 1)).equivalent (float (Binary64.ofBits 2)) .relaxed = true := by
  decide +kernel

end Literal

end TableDiff
