import TableDiff.Proofs.Literal.Equivalence
import TableDiff.Proofs.Number.Exact

/-!
# Canonical forms tell equivalent literals together

Stripping zeros from the fraction of a decimal keeps its value.  So the canonical forms of two
literals are equal exactly when the literals are equivalent, and keys made of canonical forms may
stand for the cells they come from.
-/

namespace TableDiff

namespace Decimal

theorem units_normalize (d : Decimal) : d.normalize.units = d.units := by
  unfold normalize
  split
  · next hzero => simp [units, signed, zero, hzero]
  · have hle := trimZeros_places_le d.mantissa d.scale
    have hscale := d.scale_le
    have hmantissa := trimZeros_mul_pow d.mantissa d.scale
    have hpow : 28 - (trimZeros d.mantissa d.scale).2 =
        (d.scale - (trimZeros d.mantissa d.scale).2) + (28 - d.scale) := by omega
    simp only [units, signed]
    rw [hpow, pow_add, ← mul_assoc]
    congr 1
    generalize trimZeros d.mantissa d.scale = trimmed at *
    rw [← hmantissa]
    split <;> simp

end Decimal

namespace Literal

variable {a b : Literal} {mode : ConversionMode}

theorem canonical_strict (a : Literal) : a.canonical .strict = a := rfl

theorem decimalUnits?_canonical (a : Literal) :
    (a.canonical .relaxed).decimalUnits? = a.decimalUnits? := by
  rw [canonical, if_pos rfl]
  cases hdecimal : a.toDecimal? with
  | none => rfl
  | some d =>
      have hnormal : (decimal d.normalize).toDecimal? = some d.normalize := rfl
      simp [decimalUnits?, hnormal, hdecimal, Decimal.units_normalize]

theorem canonical_of_decimalUnits?_eq_none (h : a.decimalUnits? = none) :
    a.canonical .relaxed = a := by
  have hdecimal : a.toDecimal? = none := by simpa [decimalUnits?] using h
  simp [canonical, hdecimal]

/-- A number with a decimal form is canonically a decimal of that value. -/
theorem orderKey_canonical_of_decimalUnits? {u : Int} (h : a.decimalUnits? = some u) :
    (a.canonical .relaxed).orderKey = (.decimal, [u], "") := by
  obtain ⟨d, hdecimal, rfl⟩ := Option.map_eq_some_iff.mp h
  simp [canonical, hdecimal, orderKey, Decimal.units_normalize]

theorem canonical_beq_iff :
    (a.canonical mode == b.canonical mode) = true ↔ a.equivalent b mode = true := by
  cases mode with
  | strict => rw [canonical_strict, canonical_strict, equivalent_strict_iff]
  | relaxed =>
      rw [equivalent_relaxed_iff]
      constructor
      · intro h
        have hunits := decimalUnits?_congr h
        rw [decimalUnits?_canonical, decimalUnits?_canonical] at hunits
        cases ha : a.decimalUnits? with
        | none =>
            rw [canonical_of_decimalUnits?_eq_none ha,
              canonical_of_decimalUnits?_eq_none (hunits.symm.trans ha)] at h
            exact .inl h
        | some u => exact .inr ⟨u, rfl, hunits.symm.trans ha⟩
      · intro h
        have hunits : a.decimalUnits? = b.decimalUnits? := by
          rcases h with heq | ⟨u, ha, hb⟩
          · exact decimalUnits?_congr heq
          · exact ha.trans hb.symm
        cases hb : b.decimalUnits? with
        | none =>
            rw [canonical_of_decimalUnits?_eq_none hb,
              canonical_of_decimalUnits?_eq_none (hunits.trans hb)]
            simpa [hb] using h
        | some u =>
            rw [beq_iff_orderKey_eq, orderKey_canonical_of_decimalUnits? hb,
              orderKey_canonical_of_decimalUnits? (hunits.trans hb)]

end Literal

end TableDiff
