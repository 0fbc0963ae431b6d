import TableDiff.Proofs.Cells
import TableDiff.Proofs.Literal.Conversion
import TableDiff.Proofs.Number.FifteenDigits

/-!
# What survives a conversion

A converted number is still equivalent to the original one, with two exceptions, both on the way
to a double.  The longs next to `± 2 ^ 53` are let through although they are rounded, and decimal
numbers are rounded without any check.  A decimal number of at most 15 digits comes back from the
double even so, but for those that start with `4.0` to `4.5`, where decimal forms are too long.
-/

namespace TableDiff

namespace Literal

variable {v w : Literal} {type : DataType}

/-- Whether a conversion that succeeds keeps the decimal form of the literal. -/
def Survives (v : Literal) (type : DataType) : Prop :=
  match v, type with
  | long n, .float => n.toInt.natAbs ≤ 2 ^ 53
  | decimal d, .float => (Decimal.ofBinary64? d.toBinary64).map Decimal.value = some d.value
  | _, _ => True

theorem survives_of_ne_float (h : type ≠ .float) : v.Survives type := by
  cases type with
  | float => exact absurd rfl h
  | _ => cases v <;> trivial

theorem decimalUnits?_of_whole {k : Int} (h : v.value? = some (k : Rat)) (hk : k.natAbs < 2 ^ 96) :
    v.decimalUnits? = some (k * 10 ^ 28) := by
  suffices hvalue : v.toDecimal?.map Decimal.value = some (k : Rat) by
    obtain ⟨d, hd, hdk⟩ := Option.map_eq_some_iff.mp hvalue
    have hunits : (d.units : Rat) = k * 10 ^ 28 := by
      rw [← hdk, d.value_eq_units_div]
      field_simp
    rw [decimalUnits?, hd, Option.map_some]
    exact congrArg some (by exact_mod_cast hunits)
  cases v with
  | integer n =>
      obtain rfl : n.toInt = k := by simpa [value?] using h
      exact Decimal.value_ofInt? hk
  | long n =>
      obtain rfl : n.toInt = k := by simpa [value?] using h
      exact Decimal.value_ofInt? hk
  | float x =>
      cases x with
      | finite x =>
          have hx : x.value = k := Option.some.inj h
          rw [toDecimal?, Decimal.value_ofBinary64?_of_whole hx, if_pos hk]
      | _ => cases h
  | decimal d => exact h
  | _ => cases h

theorem equivalent_iff_of_whole {k m : Int} (hv : v.value? = some (k : Rat))
    (hw : w.value? = some (m : Rat)) (hk : k.natAbs < 2 ^ 96) (hm : m.natAbs < 2 ^ 96) :
    v.equivalent w .relaxed = true ↔ k = m := by
  have hvunits := decimalUnits?_of_whole hv hk
  have hwunits := decimalUnits?_of_whole hw hm
  rw [equivalent_relaxed_iff]
  constructor
  · intro h
    have hunits : v.decimalUnits? = w.decimalUnits? := by
      rcases h with heq | ⟨u, hvu, hwu⟩
      · exact decimalUnits?_congr heq
      · exact hvu.trans hwu.symm
    rw [hvunits, hwunits, Option.some.injEq] at hunits
    omega
  · rintro rfl
    exact .inr ⟨_, hvunits, hwunits⟩

theorem equivalent_of_whole_type (htype : w.dataType = .integer ∨ w.dataType = .long)
    (h : w.value? = v.value?) : v.equivalent w .relaxed = true := by
  obtain ⟨n, hn, hvalue, -⟩ := exists_eq_intCast htype
  exact (equivalent_iff_of_whole (h.symm.trans hvalue) hvalue hn hn).mpr rfl

theorem equivalent_of_toDecimal? {d : Decimal} (h : v.toDecimal? = some d) :
    v.equivalent (decimal d) .relaxed = true := by
  rw [equivalent_relaxed_iff]
  right
  refine ⟨d.units, ?_, rfl⟩
  rw [decimalUnits?, h]
  rfl

/-! ## Conversion to a double -/

theorem toFloat?_long_eq_some {n : Int64} {x : Binary64} (h : (long n).toFloat? = some x) :
    x = Binary64.ofInt n.toInt ∧ ∃ m : Int, x.value? = some (m : Rat) ∧ m.natAbs ≤ 2 ^ 53 := by
  rw [toFloat?] at h
  split at h
  · next hguard =>
    cases h
    obtain ⟨m, hm, hle⟩ := (Option.any_eq_true _ _).mp hguard
    exact ⟨rfl, m, Binary64.integer?_eq_some_iff.mp hm, by simpa using hle⟩
  · cases h

/-- The first long above `2 ^ 53` passes the guard because it is rounded before. -/
theorem natAbs_le_of_toFloat?_long {n : Int64} {x : Binary64} (h : (long n).toFloat? = some x) :
    n.toInt.natAbs ≤ 2 ^ 53 + 1 := by
  have hlow := n.le_toInt
  have hhigh := n.toInt_lt
  obtain ⟨hx, m, hm, hle⟩ := toFloat?_long_eq_some h
  by_contra hlt
  obtain ⟨y, k, hy, hk⟩ := Binary64.ofInt_eq_whole (n := n.toInt) (by omega)
  have hym : y.value = m := by
    rw [hx, hy] at hm
    exact Option.some.inj hm
  have hlarge := Binary64.lt_natAbs_of_ofInt (by omega) (by omega) hy hym
  omega

theorem equivalent_long_iff {n : Int64} {x : Binary64} (h : (long n).toFloat? = some x) :
    (long n).equivalent (float x) .relaxed = true ↔ (long n).Survives .float := by
  have hlow := n.le_toInt
  have hhigh := n.toInt_lt
  obtain ⟨hx, m, hm, hle⟩ := toFloat?_long_eq_some h
  have hequivalent := equivalent_iff_of_whole (v := long n) (w := float x) rfl hm (by omega)
    (by omega)
  rw [hequivalent]
  constructor
  · rintro hn
    rw [Survives, hn]
    exact hle
  · intro hsurvives
    obtain ⟨y, hy, hvalue⟩ := Binary64.ofInt_eq_finite (n := n.toInt) hsurvives
    rw [hx, hy, Binary64.value?, hvalue] at hm
    exact_mod_cast Option.some.inj hm

theorem equivalent_decimal_iff {d : Decimal} :
    (decimal d).equivalent (float d.toBinary64) .relaxed = true ↔ (decimal d).Survives .float := by
  rw [equivalent_relaxed_iff_of_dataType_ne (by simp [dataType])]
  constructor
  · rintro ⟨u, hu, hfloat⟩
    obtain ⟨d', hd', rfl⟩ := Option.map_eq_some_iff.mp hfloat
    have hform : Decimal.ofBinary64? d.toBinary64 = some d' := hd'
    rw [Survives, hform, Option.map_some, Decimal.value_eq_value_iff.mpr (Option.some.inj hu)]
  · intro h
    obtain ⟨d', hd', hvalue⟩ := Option.map_eq_some_iff.mp h
    have hform : (float d.toBinary64).toDecimal? = some d' := hd'
    refine ⟨d.units, rfl, ?_⟩
    rw [decimalUnits?, hform, Option.map_some, Decimal.value_eq_value_iff.mp hvalue]

theorem survives_decimal_iff {d : Decimal} {k : Int} (h : d.value = k) :
    (decimal d).Survives .float ↔ ∃ x : Binary64.Finite, x.value = k := by
  have hk := Decimal.natAbs_lt_of_value h
  obtain ⟨x, m, hx, hm⟩ := Binary64.ofInt_eq_whole hk
  have hvalue : d.toBinary64.value? = some (m : Rat) := by
    rw [Decimal.value?_toBinary64_of_whole h, hx, Binary64.value?, hm]
  obtain ⟨y, hy, hym⟩ := Binary64.value?_eq_some_iff.mp hvalue
  have hsurvives : (decimal d).Survives .float ↔ m = k := by
    rw [Survives, hy, Decimal.value_ofBinary64?_of_whole hym, h]
    constructor
    · intro heq
      split at heq
      · exact_mod_cast Option.some.inj heq
      · cases heq
    · rintro rfl
      rw [if_pos hk]
  rw [hsurvives]
  constructor
  · rintro rfl
    exact ⟨x, hm⟩
  · rintro ⟨z, hz⟩
    have hround := z.value?_ofRat_value
    rw [hz, ← Binary64.ofInt, hx, Binary64.value?, hm] at hround
    exact_mod_cast Option.some.inj hround

theorem survives_of_short {d : Decimal} {x : Binary64.Finite} (h : d.value = x.value)
    (hd : d.mantissa < 2 ^ 52) (hscale : d.scale ≤ 22) : (decimal d).Survives .float := by
  obtain ⟨y, hy, hvalue⟩ :=
    Binary64.value?_eq_some_iff.mp (Decimal.value?_toBinary64_of_short h hd hscale)
  have hsame : d.value = y.value := h.trans hvalue.symm
  rw [Survives, hy, Decimal.value_ofBinary64?_of_short hsame hd, hsame]

/-- A decimal number of fifteen digits survives, also where it is not the value of a double, unless
its mantissa with any number of zeros is between `4 * 10 ^ 15` and `2 ^ 52`. -/
theorem survives_of_fifteen_digits {d : Decimal} (hd : d.mantissa < 10 ^ 15) (hscale : d.scale ≤ 22)
    (hdigits : ∀ j, 4 * 10 ^ 15 ≤ d.mantissa * 10 ^ j → 2 ^ 52 < d.mantissa * 10 ^ j) :
    (decimal d).Survives .float := by
  rcases Nat.eq_zero_or_pos d.mantissa with hzero | hpos
  · have hvalue : d.value = (0 : Int) := by
      rw [Decimal.value, Decimal.signed, hzero]
      simp
    exact (survives_decimal_iff hvalue).mpr (Binary64.exists_value_eq_intCast (by decide))
  rcases Nat.eq_zero_or_pos d.scale with hwhole | hplaces
  · have hvalue : d.value = d.signed := by rw [Decimal.value, hwhole, pow_zero, Rat.mkRat_one]
    have hsigned := d.natAbs_signed
    exact (survives_decimal_iff hvalue).mpr (Binary64.exists_value_eq_intCast (by omega))
  · exact Decimal.value_ofBinary64?_toBinary64 hpos hd hplaces hscale hdigits

theorem equivalent_toFloat?_iff {x : Binary64} (h : v.toFloat? = some x) :
    v.equivalent (float x) .relaxed = true ↔ v.Survives .float := by
  cases v with
  | integer n =>
      obtain ⟨w, hw, -, hvalue⟩ := exists_convert_float n
      rw [convert_float, h, Option.map_some, Option.some.injEq] at hw
      subst hw
      exact iff_of_true (equivalent_symm (equivalent_of_whole_type (.inl rfl) hvalue.symm)) trivial
  | long n => exact equivalent_long_iff h
  | float y =>
      cases h
      exact iff_of_true (equivalent_refl _ _) trivial
  | decimal d =>
      cases h
      exact equivalent_decimal_iff
  | _ => cases h

/-- A conversion that succeeds gives an equivalent literal if the value survives. -/
theorem equivalent_iff_survives (h : v.convert type = some w) :
    v.equivalent w .relaxed = true ↔ v.Survives type := by
  by_cases hfloat : type = .float
  · subst hfloat
    rw [convert_float] at h
    obtain ⟨x, hx, rfl⟩ := Option.map_eq_some_iff.mp h
    exact equivalent_toFloat?_iff hx
  refine iff_of_true ?_ (survives_of_ne_float hfloat)
  by_cases hwhole : type = .integer ∨ type = .long
  · obtain ⟨hw, q, hvq, hwq⟩ := (convert_eq_some_iff_of_whole hwhole).mp h
    exact equivalent_of_whole_type (hw ▸ hwhole) (hwq.trans hvq.symm)
  by_cases hdecimal : type = .decimal
  · subst hdecimal
    rw [convert_decimal] at h
    obtain ⟨d, hd, rfl⟩ := Option.map_eq_some_iff.mp h
    exact equivalent_of_toDecimal? hd
  · have hnumeric : type.isNumeric = false := by
      cases type <;> simp_all [DataType.isNumeric]
    rw [eq_of_convert_of_not_numeric hnumeric h]
    exact equivalent_refl v .relaxed

end Literal

namespace Column

theorem convert_of_store {c next : Column} {index : Nat} {conversion : ConversionMode}
    {v : Literal} {stored : Value}
    (h : c.store index conversion (.literal v) = .ok (next, stored)) :
    ∃ w, stored = .literal w ∧ v.convert next.type = some w := by
  rw [store] at h
  split at h
  · cases h
    exact ⟨v, rfl, v.convert_dataType⟩
  · split at h
    · next hsame =>
      cases h
      exact ⟨v, rfl, hsame ▸ v.convert_dataType⟩
    · split at h
      · next w hw =>
        cases h
        split at hw
        · exact ⟨w, rfl, hw⟩
        · cases hw
      · cases h

end Column

namespace Table

/-- A pushed literal is stored converted to the type of its column. -/
theorem getElem?_of_pushRow {t next : Table} {cells : List Value} {j : Nat} {c : Column}
    {v w : Literal} (h : t.pushRow cells = .ok next) (hv : cells[j]? = some (.literal v))
    (hc : next.columns[j]? = some c) (hw : v.convert c.type = some w) :
    ∃ row, next.rows = t.rows ++ [row] ∧ row.cells[j]? = some (.literal w) := by
  obtain ⟨row, hrows, hcells⟩ := store_of_pushRow h
  obtain ⟨old, cell, stored, -, hcell, hstored, hstore⟩ := hcells j c hc
  obtain rfl : cell = .literal v := Option.some.inj (hcell.symm.trans hv)
  obtain ⟨w', rfl, hw'⟩ := Column.convert_of_store hstore
  obtain rfl : w' = w := Option.some.inj (hw'.symm.trans hw)
  exact ⟨row, hrows, hstored⟩

end Table

namespace Literal

variable {v w : Literal} {type : DataType}

theorem matchesCell_literal_iff {mode : ConversionMode} :
    (Value.literal v).matchesCell (.literal w) mode = .ok true ↔ v.equivalent w mode = true := by
  rw [Value.matchesCell_eq_ok_true_iff]
  simp [Value.evaluate, Value.admits]

/-- A conversion keeps its literal recognisable just when that survives.  Everything does but two
longs and the decimal numbers that are not the decimal form of the double they become, which needs
more than 15 digits or more than 22 places, or digits between those of `4 * 10 ^ 15` and
`2 ^ 52`. -/
theorem convert_survives (h : v.convert type = some w) :
    (v.equivalent w .relaxed = true ↔ v.Survives type) ∧
    (∀ n, v = long n → type = .float → n.toInt.natAbs ≤ 2 ^ 53 + 1) ∧
    (∀ (d : Decimal) (k : Int), v = decimal d → type = .float → d.value = k →
      (v.Survives type ↔ ∃ x : Binary64.Finite, x.value = k)) ∧
    (∀ (d : Decimal) (x : Binary64.Finite), v = decimal d → type = .float → d.value = x.value →
      d.mantissa < 2 ^ 52 → d.scale ≤ 22 → v.Survives type) ∧
    (∀ d : Decimal, v = decimal d → type = .float → d.mantissa < 10 ^ 15 → d.scale ≤ 22 →
      (∀ j, 4 * 10 ^ 15 ≤ d.mantissa * 10 ^ j → 2 ^ 52 < d.mantissa * 10 ^ j) →
      v.Survives type) ∧
    ∀ (t next : Table) (cells : List Value) (j : Nat) (c : Column),
      t.pushRow cells = .ok next → cells[j]? = some (.literal v) →
      next.columns[j]? = some c → c.type = type →
      ∃ row, next.rows = t.rows ++ [row] ∧ row.cells[j]? = some (.literal w) ∧
        ((Value.literal v).matchesCell (.literal w) .relaxed = .ok true ↔ v.Survives type) := by
  have hequivalent := equivalent_iff_survives h
  refine ⟨hequivalent, ?_, ?_, ?_, ?_, ?_⟩
  · rintro n rfl rfl
    rw [convert_float] at h
    obtain ⟨x, hx, -⟩ := Option.map_eq_some_iff.mp h
    exact natAbs_le_of_toFloat?_long hx
  · rintro d k rfl rfl hk
    exact survives_decimal_iff hk
  · rintro d x rfl rfl hx hd hscale
    exact survives_of_short hx hd hscale
  · rintro d rfl rfl hd hscale hdigits
    exact survives_of_fifteen_digits hd hscale hdigits
  · rintro t next cells j c hpush hv hc rfl
    obtain ⟨row, hrows, hstored⟩ := Table.getElem?_of_pushRow hpush hv hc h
    exact ⟨row, hrows, hstored, matchesCell_literal_iff.trans hequivalent⟩

/-- The decimal number `0.1` is not a double, but it survives as one, also in a table. -/
theorem convert_survives_oneTenth :
    (decimal ⟨false, 1, 1, by decide, by decide⟩).equivalent
      (float (Decimal.toBinary64 ⟨false, 1, 1, by decide, by decide⟩)) .relaxed = true ∧
    ∃ row : Row, row.cells[0]? =
        some (.literal (float (Decimal.toBinary64 ⟨false, 1, 1, by decide, by decide⟩))) ∧
      (Value.literal (decimal ⟨false, 1, 1, by decide, by decide⟩)).matchesCell
        (.literal (float (Decimal.toBinary64 ⟨false, 1, 1, by decide, by decide⟩)))
        .relaxed = .ok true := by
  have hconvert : (decimal ⟨false, 1, 1, by decide, by decide⟩).convert .float =
      some (float (Decimal.toBinary64 ⟨false, 1, 1, by decide, by decide⟩)) := rfl
  obtain ⟨hequivalent, -, -, -, hfifteen, htable⟩ := convert_survives hconvert
  have hdigits (j : Nat) (h : 4 * 10 ^ 15 ≤ 1 * 10 ^ j) : 2 ^ 52 < 1 * 10 ^ j := by
    rcases Nat.lt_or_ge j 16 with hj | hj
    · have hle : 10 ^ j ≤ 10 ^ 15 := Nat.pow_le_pow_right (by decide) (by omega)
      omega
    · have hle : 10 ^ 16 ≤ 10 ^ j := Nat.pow_le_pow_right (by decide) hj
      omega
  have hsurvives := hfifteen _ rfl rfl (by decide) (by decide) hdigits
  obtain ⟨row, -, hstored, hmatch⟩ := htable ⟨[⟨none, .float, false⟩], [], .relaxed⟩ _
    [.literal (decimal ⟨false, 1, 1, by decide, by decide⟩)] 0 _ rfl rfl rfl rfl
  exact ⟨hequivalent.mpr hsurvives, row, hstored, hmatch.mpr hsurvives⟩

/-- The long `2 ^ 53 + 1` becomes `2 ^ 53`, and the decimal form of the double for `4096.029` is
`4096.029000000001`. -/
theorem convert_rounds :
    (∃ w, (long 9007199254740993).convert .float = some w ∧
      (long 9007199254740993).equivalent w .relaxed = false) ∧
    ∃ w, (decimal ⟨false, 4096029, 3, by decide, by decide⟩).convert .float = some w ∧
      (decimal ⟨false, 4096029, 3, by decide, by decide⟩).equivalent w .relaxed = false := by
  have hlong : (long 9007199254740993).toFloat? = some (Binary64.ofInt 9007199254740993) := by
    decide +kernel
  refine ⟨⟨float (Binary64.ofInt 9007199254740993), ?_, by decide +kernel⟩, _, rfl,
    by decide +kernel⟩
  rw [convert_float, hlong, Option.map_some]

end Literal

end TableDiff
