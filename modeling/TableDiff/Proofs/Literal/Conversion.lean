import TableDiff.Proofs.Number.WholeNumbers
import TableDiff.Proofs.Table

/-!
# Exact conversions

Conversions into the whole types, and from the whole types into wider ones, neither lose nor change
a value: they succeed when the exact value of the literal is a value of the target type, and the
result has that value.  Hence a number comes back unchanged from a wider type.
-/

namespace TableDiff

namespace Literal

/-- The exact value of a number.  NaN, the infinities and literals that are no numbers have none. -/
def value? : Literal → Option Rat
  | integer n => some n.toInt
  | long n => some n.toInt
  | float x => x.value?
  | decimal d => some d.value
  | _ => none

end Literal

namespace DataType

def HasValue (type : DataType) (q : Rat) : Prop :=
  ∃ w : Literal, w.dataType = type ∧ w.value? = some q

/-- The pairs of types between which no conversion rounds. -/
def ExactInto (source target : DataType) : Prop :=
  source ∈ [integer, long] ∧ target ∈ [integer, long, decimal] ∨
    source = integer ∧ target = float ∨
    source ∈ [float, decimal] ∧ target ∈ [integer, long]

instance (source target : DataType) : Decidable (source.ExactInto target) :=
  inferInstanceAs (Decidable (_ ∨ _ ∨ _))

end DataType

namespace Literal

variable {v w : Literal} {type : DataType}

theorem wholeNumber?_eq_some_iff {k : Int} :
    v.wholeNumber? = some k ↔ v.value? = some (k : Rat) := by
  cases v with
  | integer n => simp [wholeNumber?, value?]
  | long n => simp [wholeNumber?, value?]
  | float x => exact Binary64.integer?_eq_some_iff
  | decimal d => simp [wholeNumber?, value?, Decimal.integer?_eq_some_iff]
  | boolean b => simp [wholeNumber?, value?]
  | string s => simp [wholeNumber?, value?]
  | date d => simp [wholeNumber?, value?]
  | dateTime t => simp [wholeNumber?, value?]

/-- Words of a fixed size stand for the integers between two bounds. -/
theorem bind_ofInt_eq_some_iff {α : Type} {low high : Int} {ofInt : Int → α} {toInt : α → Int}
    (hofInt : ∀ a, ofInt (toInt a) = a) (hrange : ∀ a, low ≤ toInt a ∧ toInt a ≤ high)
    (htoInt : ∀ k, low ≤ k → k ≤ high → toInt (ofInt k) = k) {whole : Option Int} {a : α} :
    (whole.bind fun k => if low ≤ k ∧ k ≤ high then some (ofInt k) else none) = some a ↔
      whole = some (toInt a) := by
  rw [Option.bind_eq_some_iff]
  constructor
  · rintro ⟨k, hk, hword⟩
    split at hword
    · next hbounds =>
      cases hword
      rw [hk, htoInt k hbounds.1 hbounds.2]
    · cases hword
  · intro hwhole
    exact ⟨toInt a, hwhole, by rw [if_pos (hrange a), hofInt]⟩

theorem toInteger?_eq_some_iff {n : Int32} :
    v.toInteger? = some n ↔ v.value? = some (n.toInt : Rat) := by
  rw [← wholeNumber?_eq_some_iff]
  apply bind_ofInt_eq_some_iff Int32.ofInt_toInt
  · intro n
    exact ⟨n.minValue_le_toInt, n.toInt_le⟩
  · intro k hlow hhigh
    exact Int32.toInt_ofInt_of_le hlow (Int.lt_of_le_sub_one hhigh)

theorem toLong?_eq_some_iff {n : Int64} :
    v.toLong? = some n ↔ v.value? = some (n.toInt : Rat) := by
  rw [← wholeNumber?_eq_some_iff]
  apply bind_ofInt_eq_some_iff Int64.ofInt_toInt
  · intro n
    exact ⟨n.minValue_le_toInt, n.toInt_le⟩
  · intro k hlow hhigh
    exact Int64.toInt_ofInt_of_le hlow (Int.lt_of_le_sub_one hhigh)

theorem exists_eq_integer (h : v.dataType = .integer) : ∃ n, v = integer n := by
  cases v <;> simp [dataType] at h ⊢

theorem exists_eq_long (h : v.dataType = .long) : ∃ n, v = long n := by
  cases v <;> simp [dataType] at h ⊢

theorem convert_dataType (v : Literal) : v.convert v.dataType = some v := by
  unfold convert
  rw [if_pos (.inl rfl)]

theorem convert_integer (v : Literal) : v.convert .integer = v.toInteger?.map integer := by
  cases v with
  | integer n =>
      rw [toInteger?_eq_some_iff.mpr rfl]
      rfl
  | _ => rfl

theorem convert_long (v : Literal) : v.convert .long = v.toLong?.map long := by
  cases v with
  | long n =>
      rw [toLong?_eq_some_iff.mpr rfl]
      rfl
  | _ => rfl

theorem convert_float (v : Literal) : v.convert .float = v.toFloat?.map float := by
  cases v <;> rfl

theorem convert_decimal (v : Literal) : v.convert .decimal = v.toDecimal?.map decimal := by
  cases v <;> rfl

theorem eq_of_convert_of_not_numeric (htype : type.isNumeric = false)
    (h : v.convert type = some w) : w = v := by
  unfold convert at h
  split at h
  · exact (Option.some.inj h).symm
  · cases type <;> simp [DataType.isNumeric] at htype h

/-- A literal becomes the integer, or the long, of its own value. -/
theorem convert_eq_some_iff_of_whole (htype : type = .integer ∨ type = .long) :
    v.convert type = some w ↔ w.dataType = type ∧ ∃ q, v.value? = some q ∧ w.value? = some q := by
  rcases htype with rfl | rfl
  · simp only [convert_integer, Option.map_eq_some_iff, toInteger?_eq_some_iff]
    constructor
    · rintro ⟨n, hn, rfl⟩
      exact ⟨rfl, _, hn, rfl⟩
    · rintro ⟨hw, q, hv, hq⟩
      obtain ⟨n, rfl⟩ := exists_eq_integer hw
      exact ⟨n, hv.trans hq.symm, rfl⟩
  · simp only [convert_long, Option.map_eq_some_iff, toLong?_eq_some_iff]
    constructor
    · rintro ⟨n, hn, rfl⟩
      exact ⟨rfl, _, hn, rfl⟩
    · rintro ⟨hw, q, hv, hq⟩
      obtain ⟨n, rfl⟩ := exists_eq_long hw
      exact ⟨n, hv.trans hq.symm, rfl⟩

theorem exists_eq_intCast (h : v.dataType = .integer ∨ v.dataType = .long) :
    ∃ n : Int, n.natAbs < 2 ^ 96 ∧ v.value? = some (n : Rat) ∧
      v.toDecimal? = Decimal.ofInt? n := by
  rcases h with h | h
  · obtain ⟨n, rfl⟩ := exists_eq_integer h
    have hlow := n.le_toInt
    have hhigh := n.toInt_lt
    exact ⟨n.toInt, by omega, rfl, rfl⟩
  · obtain ⟨n, rfl⟩ := exists_eq_long h
    have hlow := n.le_toInt
    have hhigh := n.toInt_lt
    exact ⟨n.toInt, by omega, rfl, rfl⟩

theorem exists_convert_decimal (h : v.dataType = .integer ∨ v.dataType = .long) :
    ∃ w, v.convert .decimal = some w ∧ w.dataType = .decimal ∧ w.value? = v.value? := by
  obtain ⟨n, hn, hvalue, hform⟩ := exists_eq_intCast h
  obtain ⟨d, hd, hdvalue⟩ := Option.map_eq_some_iff.mp (Decimal.value_ofInt? hn)
  exact ⟨decimal d, by rw [convert_decimal, hform, hd, Option.map_some], rfl,
    by rw [value?, hdvalue, hvalue]⟩

theorem exists_convert_float (n : Int32) :
    ∃ w, (integer n).convert .float = some w ∧ w.dataType = .float ∧
      w.value? = (integer n).value? := by
  have hlow := n.le_toInt
  have hhigh := n.toInt_lt
  obtain ⟨x, hx, hvalue⟩ := Binary64.ofInt_eq_finite (n := n.toInt) (by omega)
  exact ⟨float (.finite x), by rw [convert_float, toFloat?, hx, Option.map_some], rfl,
    congrArg some hvalue⟩

/-- The conversion succeeds just when the value of the literal is a value of the type, and keeps
that value. -/
structure ConvertsExactly (v : Literal) (type : DataType) : Prop where
  isSome_iff : (v.convert type).isSome = true ↔ ∃ q, v.value? = some q ∧ type.HasValue q
  exact : ∀ w, v.convert type = some w → w.dataType = type ∧ w.value? = v.value?

theorem ConvertsExactly.of_eq_some {q : Rat} (hq : v.value? = some q)
    (h : v.convert type = some w ∧ w.dataType = type ∧ w.value? = v.value?) :
    v.ConvertsExactly type := by
  obtain ⟨hconvert, htype, hvalue⟩ := h
  refine ⟨iff_of_true (by rw [hconvert]; rfl) ⟨q, hq, w, htype, hvalue.trans hq⟩, ?_⟩
  intro w' hw'
  obtain rfl : w = w' := Option.some.inj (hconvert.symm.trans hw')
  exact ⟨htype, hvalue⟩

theorem ConvertsExactly.eq_none (h : v.ConvertsExactly type) (hv : v.value? = none) :
    v.convert type = none := by
  rw [← Option.not_isSome_iff_eq_none, h.isSome_iff]
  rintro ⟨q, hq, -⟩
  cases hv.symm.trans hq

theorem convertsExactly_of_whole (htype : type = .integer ∨ type = .long) :
    v.ConvertsExactly type := by
  refine ⟨?_, ?_⟩
  · rw [Option.isSome_iff_exists]
    simp only [convert_eq_some_iff_of_whole htype]
    constructor
    · rintro ⟨w, hw, q, hv, hq⟩
      exact ⟨q, hv, w, hw, hq⟩
    · rintro ⟨q, hv, w, hw, hq⟩
      exact ⟨w, hw, q, hv, hq⟩
  · intro w h
    obtain ⟨hw, q, hv, hq⟩ := (convert_eq_some_iff_of_whole htype).mp h
    exact ⟨hw, hq.trans hv.symm⟩

theorem convertsExactly_of_exactInto (h : v.dataType.ExactInto type) : v.ConvertsExactly type := by
  rcases h with ⟨hsource, htarget⟩ | ⟨hsource, rfl⟩ | ⟨-, htarget⟩
  · have hwhole : v.dataType = .integer ∨ v.dataType = .long := by simpa using hsource
    obtain htarget | rfl : (type = .integer ∨ type = .long) ∨ type = .decimal := by
      simpa [or_assoc] using htarget
    · exact convertsExactly_of_whole htarget
    · obtain ⟨n, -, hvalue, -⟩ := exists_eq_intCast hwhole
      obtain ⟨w, hw⟩ := exists_convert_decimal hwhole
      exact .of_eq_some hvalue hw
  · obtain ⟨n, rfl⟩ := exists_eq_integer hsource
    obtain ⟨w, hw⟩ := exists_convert_float n
    exact .of_eq_some rfl hw
  · exact convertsExactly_of_whole (by simpa using htarget)

/-- A number that keeps its value in another type is recovered from it. -/
theorem exists_convert_back (htype : v.dataType = .integer ∨ v.dataType = .long)
    (h : ∃ w, v.convert type = some w ∧ w.dataType = type ∧ w.value? = v.value?) :
    ∃ w, v.convert type = some w ∧ w.convert v.dataType = some v := by
  obtain ⟨n, -, hvalue, -⟩ := exists_eq_intCast htype
  obtain ⟨w, hw, -, hsame⟩ := h
  exact ⟨w, hw, (convert_eq_some_iff_of_whole htype).mpr ⟨rfl, n, hsame.trans hvalue, hvalue⟩⟩

theorem exists_convert_integer (n : Int32) (hnumeric : type.isNumeric = true) :
    ∃ w, (integer n).convert type = some w ∧ w.dataType = type ∧
      w.value? = (integer n).value? := by
  cases type with
  | integer => exact ⟨integer n, rfl, rfl, rfl⟩
  | long =>
      have hlow := n.le_toInt
      have hhigh := n.toInt_lt
      have hword : (Int64.ofInt n.toInt).toInt = n.toInt :=
        Int64.toInt_ofInt_of_le (by omega) (by omega)
      have hvalue : (long (Int64.ofInt n.toInt)).value? = (integer n).value? := by
        rw [value?, value?, hword]
      exact ⟨_, (convert_eq_some_iff_of_whole (.inr rfl)).mpr ⟨rfl, _, rfl, hvalue⟩, rfl, hvalue⟩
  | float => exact exists_convert_float n
  | decimal => exact exists_convert_decimal (.inl rfl)
  | _ => cases hnumeric

/-- Conversions between the whole types, from them into wider types and back into them are exact,
and so a round trip through a wider type changes nothing. -/
theorem convert_exact :
    (∀ (v : Literal) (type : DataType), v.dataType.ExactInto type → v.ConvertsExactly type) ∧
    (∀ type : DataType, DataType.float.ExactInto type →
      (float .nan).convert type = none ∧
        ∀ negative, (float (.infinite negative)).convert type = none) ∧
    (∀ (n : Int32) (type : DataType), type.isNumeric = true →
      ∃ w, (integer n).convert type = some w ∧ w.convert .integer = some (integer n)) ∧
    ∀ n : Int64, ∃ w, (long n).convert .decimal = some w ∧ w.convert .long = some (long n) := by
  refine ⟨?_, ?_, ?_, ?_⟩
  · intro v type h
    exact convertsExactly_of_exactInto h
  · intro type htype
    have hexact : ∀ x : Binary64, (float x).ConvertsExactly type := by
      intro x
      exact convertsExactly_of_exactInto htype
    constructor
    · exact (hexact .nan).eq_none rfl
    · intro negative
      exact (hexact (.infinite negative)).eq_none rfl
  · intro n type hnumeric
    exact exists_convert_back (.inl rfl) (exists_convert_integer n hnumeric)
  · intro n
    exact exists_convert_back (.inr rfl) (exists_convert_decimal (.inr rfl))

/-- The decimal number `3.0` is an integer, and the integer `3` is a double. -/
theorem convert_exact_threePointZero :
    (decimal ⟨false, 30, 1, by decide, by decide⟩).ConvertsExactly .integer ∧
      (float .nan).convert .long = none ∧
      ∃ w, (integer 3).convert .float = some w ∧ w.convert .integer = some (integer 3) := by
  obtain ⟨hexact, hfloat, hinteger, _⟩ := convert_exact
  refine ⟨hexact _ _ (by decide), ?_, hinteger 3 .float rfl⟩
  exact (hfloat .long (by decide)).1

end Literal

end TableDiff
