import TableDiff.IndexSet
import Mathlib.Tactic

/-!
# The members of a set of indices

The list of members goes through the words from the lowest bit on.  It is strictly ascending, holds
exactly the indices that the set contains, and is as long as the size of the set, which is counted
without making the list.  A cursor takes the lowest bit of a word and clears it; going through all
bits of every word one by one gives the same list.
-/

namespace TableDiff

namespace Words

/-- The positions of the bits set in the lowest `n` bits of a word, counted from `base`. -/
def positions (base : Nat) : (n : Nat) → UInt64 → List Nat
  | 0, _ => []
  | n + 1, w =>
    if w = 0 then []
    else if w &&& 1 = 1 then base :: positions (base + 1) n (w >>> 1)
    else positions (base + 1) n (w >>> 1)

/-- The indices in the words, ascending, where the first word starts at `base`. -/
def members (base : Nat) : List UInt64 → List Nat
  | [] => []
  | w :: ws => positions base 64 w ++ members (base + 64) ws

theorem getLsbD_shiftRight_one (w : UInt64) (k : Nat) :
    (w >>> 1).toBitVec.getLsbD k = w.toBitVec.getLsbD (k + 1) := by
  simp [UInt64.toBitVec_shiftRight, Nat.add_comm]

/-- Masking with one leaves the lowest bit. -/
theorem and_one_eq (w : UInt64) : w &&& 1 = if w.toBitVec.getLsbD 0 then 1 else 0 := by
  apply UInt64.toBitVec_inj.mp
  have hone : (1 : UInt64).toBitVec = 1#64 := rfl
  rw [UInt64.toBitVec_and, hone, BitVec.and_one_eq_setWidth_ofBool_getLsbD]
  cases w.toBitVec.getLsbD 0 <;> rfl

theorem mem_positions {base n : Nat} {w : UInt64} {i : Nat} :
    i ∈ positions base n w ↔ ∃ k < n, w.toBitVec.getLsbD k = true ∧ i = base + k := by
  induction n generalizing base w with
  | zero => simp [positions]
  | succ n ih =>
      have hlater : (∃ k < n, (w >>> 1).toBitVec.getLsbD k = true ∧ i = base + 1 + k) ↔
          ∃ k < n + 1, k ≠ 0 ∧ w.toBitVec.getLsbD k = true ∧ i = base + k := by
        constructor
        · rintro ⟨k, hk, hbit, rfl⟩
          rw [getLsbD_shiftRight_one] at hbit
          exact ⟨k + 1, by omega, by omega, hbit, by omega⟩
        · rintro ⟨k, hk, hne, hbit, rfl⟩
          refine ⟨k - 1, by omega, ?_, by omega⟩
          rwa [getLsbD_shiftRight_one, Nat.sub_add_cancel (by omega)]
      unfold positions
      split
      · next hzero => simp [hzero]
      · rw [and_one_eq]
        cases hbit : w.toBitVec.getLsbD 0 with
        | true =>
            simp only [if_true, List.mem_cons, ih, hlater]
            constructor
            · rintro (rfl | ⟨k, hk, _, hk'⟩)
              · exact ⟨0, by omega, hbit, rfl⟩
              · exact ⟨k, hk, hk'⟩
            · rintro ⟨k, hk, hk'⟩
              by_cases hzero : k = 0
              · simp [hk'.2, hzero]
              · exact .inr ⟨k, hk, hzero, hk'⟩
        | false =>
            have hne : ¬(0 : UInt64) = 1 := by decide
            simp only [Bool.false_eq_true, if_false, hne, ih, hlater]
            constructor
            · rintro ⟨k, hk, _, hk'⟩
              exact ⟨k, hk, hk'⟩
            · rintro ⟨k, hk, hk'⟩
              refine ⟨k, hk, ?_, hk'⟩
              rintro rfl
              rw [hbit] at hk'
              cases hk'.1

theorem pairwise_lt_positions (base n : Nat) (w : UInt64) :
    (positions base n w).Pairwise (· < ·) := by
  induction n generalizing base w with
  | zero => exact List.Pairwise.nil
  | succ n ih =>
      unfold positions
      split
      · exact List.Pairwise.nil
      · split
        · refine List.pairwise_cons.mpr ⟨?_, ih _ _⟩
          intro i hi
          obtain ⟨k, _, _, rfl⟩ := mem_positions.mp hi
          omega
        · exact ih _ _

theorem length_positions (base n : Nat) (w : UInt64) :
    (positions base n w).length = countBits n w := by
  induction n generalizing base w with
  | zero => rfl
  | succ n ih =>
      unfold positions countBits
      split
      · rfl
      · rw [and_one_eq]
        cases w.toBitVec.getLsbD 0 with
        | true => simp [ih, Nat.add_comm]
        | false => simp [ih]

theorem mem_members {base : Nat} {ws : List UInt64} {i : Nat} :
    i ∈ members base ws ↔ ∃ k, bit ws k = true ∧ i = base + k := by
  induction ws generalizing base with
  | nil => simp [members, bit]
  | cons w ws ih =>
      rw [members, List.mem_append, mem_positions, ih]
      constructor
      · rintro (⟨k, hk, hbit, rfl⟩ | ⟨k, hbit, rfl⟩)
        · refine ⟨k, ?_, rfl⟩
          rw [bit, Nat.div_eq_of_lt hk, Nat.mod_eq_of_lt hk]
          simpa using hbit
        · refine ⟨k + 64, ?_, by omega⟩
          rw [bit, Nat.add_div_right _ (by decide), Nat.add_mod_right]
          simpa [bit] using hbit
      · rintro ⟨k, hbit, rfl⟩
        by_cases hk : k < 64
        · rw [bit, Nat.div_eq_of_lt hk, Nat.mod_eq_of_lt hk] at hbit
          exact .inl ⟨k, hk, by simpa using hbit, rfl⟩
        · obtain ⟨j, rfl⟩ := Nat.exists_eq_add_of_le' (Nat.le_of_not_lt hk)
          rw [bit, Nat.add_div_right _ (by decide), Nat.add_mod_right] at hbit
          exact .inr ⟨j, by simpa [bit] using hbit, by omega⟩

theorem pairwise_lt_members (base : Nat) (ws : List UInt64) :
    (members base ws).Pairwise (· < ·) := by
  induction ws generalizing base with
  | nil => exact List.Pairwise.nil
  | cons w ws ih =>
      refine List.pairwise_append.mpr ⟨pairwise_lt_positions _ _ _, ih _, ?_⟩
      intro i hi j hj
      obtain ⟨k, hk, _, rfl⟩ := mem_positions.mp hi
      obtain ⟨k', _, rfl⟩ := mem_members.mp hj
      omega

theorem length_members (base : Nat) (ws : List UInt64) :
    (members base ws).length = (ws.map (countBits 64)).sum := by
  induction ws generalizing base with
  | nil => rfl
  | cons w ws ih => simp [members, length_positions, ih]

/-! ## The lowest bit of a word -/

variable {w : UInt64} {k : Nat}

theorem toNat_mod_two_pow_of_lowest (hbit : w.toBitVec.getLsbD k = true)
    (hlow : ∀ j < k, w.toBitVec.getLsbD j = false) : w.toNat % 2 ^ (k + 1) = 2 ^ k := by
  apply Nat.eq_of_testBit_eq
  intro j
  rw [Nat.testBit_mod_two_pow, Nat.testBit_two_pow]
  change (_ && w.toBitVec.getLsbD j) = _
  rcases Nat.lt_trichotomy j k with hlt | rfl | hlt
  · rw [hlow j hlt, Bool.and_false, decide_eq_false (by omega)]
  · rw [hbit, decide_eq_true (by omega), decide_eq_true rfl, Bool.and_true]
  · rw [decide_eq_false (by omega), decide_eq_false (by omega), Bool.false_and]

/-- Subtracting one changes no bit above the lowest one that is set, and clears that one. -/
theorem getLsbD_and_sub_one (hbit : w.toBitVec.getLsbD k = true)
    (hlow : ∀ j < k, w.toBitVec.getLsbD j = false) (j : Nat) :
    (w &&& (w - 1)).toBitVec.getLsbD j = (w.toBitVec.getLsbD j && decide (j ≠ k)) := by
  obtain ⟨q, hq⟩ : ∃ q, w.toNat = 2 ^ (k + 1) * q + 2 ^ k := by
    refine ⟨w.toNat / 2 ^ (k + 1), ?_⟩
    rw [← toNat_mod_two_pow_of_lowest hbit hlow, Nat.div_add_mod]
  have hpos : 0 < 2 ^ k := Nat.two_pow_pos k
  have hlt : 2 ^ k < 2 ^ (k + 1) := Nat.pow_lt_pow_right (by decide) (Nat.lt_succ_self k)
  have hsub : (w - 1).toNat = 2 ^ (k + 1) * q + (2 ^ k - 1) := by
    rw [UInt64.toNat_sub_of_le _ _ (UInt64.le_iff_toNat_le.mpr (hq ▸ by
      rw [UInt64.toNat_one]; omega)), hq, UInt64.toNat_one]
    omega
  change (w &&& (w - 1)).toNat.testBit j = (w.toNat.testBit j && decide (j ≠ k))
  rw [UInt64.toNat_and, Nat.testBit_and, hsub, hq, Nat.testBit_two_pow_mul_add q hlt,
    Nat.testBit_two_pow_mul_add q (by omega)]
  by_cases hj : j < k + 1
  · rw [if_pos hj, if_pos hj, Nat.testBit_two_pow, Nat.testBit_two_pow_sub_one, ← Bool.decide_and,
      ← Bool.decide_and, decide_eq_decide]
    omega
  · rw [if_neg hj, if_neg hj, Bool.and_self, decide_eq_true (by omega), Bool.and_true]

theorem positions_eq_cons (base : Nat) (h : w ≠ 0) :
    positions base 64 w =
      (base + w.toBitVec.ctz.toNat) :: positions base 64 (w &&& (w - 1)) := by
  have hne : w.toBitVec ≠ 0#64 := by
    intro hzero
    exact h (UInt64.toBitVec_inj.mp hzero)
  have hbit := BitVec.getLsbD_true_ctz_of_ne_zero hne
  have hlow : ∀ j < w.toBitVec.ctz.toNat, w.toBitVec.getLsbD j = false := by
    intro j hj
    exact BitVec.getLsbD_false_of_lt_ctz hj
  generalize w.toBitVec.ctz.toNat = k at hbit hlow
  have hk : k < 64 := BitVec.lt_of_getLsbD hbit
  have hfirst : ((base + k) :: positions base 64 (w &&& (w - 1))).Pairwise (· < ·) := by
    refine List.pairwise_cons.mpr ⟨?_, pairwise_lt_positions _ _ _⟩
    intro i hi
    obtain ⟨j, _, hj, rfl⟩ := mem_positions.mp hi
    rw [getLsbD_and_sub_one hbit hlow, Bool.and_eq_true, decide_eq_true_eq] at hj
    have hnot : ¬j < k := by
      intro hlt
      rw [hlow j hlt] at hj
      cases hj.1
    omega
  apply List.Pairwise.eq_of_mem_iff (pairwise_lt_positions _ _ _) hfirst
  · intro i
    rw [List.mem_cons, mem_positions, mem_positions]
    simp only [getLsbD_and_sub_one hbit hlow, Bool.and_eq_true, decide_eq_true_eq]
    constructor
    · rintro ⟨j, hj, hset, rfl⟩
      by_cases heq : j = k
      · exact .inl (by rw [heq])
      · exact .inr ⟨j, hj, ⟨hset, heq⟩, rfl⟩
    · rintro (rfl | ⟨j, hj, ⟨hset, _⟩, rfl⟩)
      · exact ⟨k, hk, hbit, rfl⟩
      · exact ⟨j, hj, hset, rfl⟩

end Words

namespace IndexSet

namespace Cursor

/-- The members that have not been given yet. -/
def ahead (c : Cursor) : List Nat :=
  Words.positions (64 * c.wordIndex) 64 c.current ++
    Words.members (64 * (c.wordIndex + 1)) c.later

/-- A call gives the first member ahead and leaves the others ahead. -/
theorem ahead_eq (c : Cursor) :
    c.ahead = match c.next? with
      | none => []
      | some (i, rest) => i :: rest.ahead := by
  obtain ⟨wordIndex, current, later⟩ := c
  unfold next?
  dsimp only
  fun_induction nextFrom wordIndex current later with
  | case1 wordIndex => rfl
  | case2 wordIndex w ws ih =>
      rw [← ih]
      rfl
  | case3 wordIndex current later hcurrent =>
      rw [ahead, Words.positions_eq_cons _ hcurrent]
      rfl

theorem items_eq (c : Cursor) :
    c.items = match c.next? with
      | none => []
      | some (i, rest) => i :: rest.items := by
  rw [items]
  split <;> simp [*]

theorem items_eq_ahead (c : Cursor) : c.items = c.ahead := by
  fun_induction items c with
  | case1 c hend => rw [ahead_eq, hend]
  | case2 c i rest hnext ih => rw [ahead_eq, hnext, ih]

end Cursor

variable {s : IndexSet}

theorem toList_eq_members (s : IndexSet) : s.toList = Words.members 0 s.words := by
  rw [toList, Cursor.items_eq_ahead, Cursor.ahead, cursor]
  cases s.words with
  | nil => rfl
  | cons w ws => rfl

@[simp] theorem mem_toList {i : Nat} : i ∈ s.toList ↔ s.contains i = true := by
  simp [toList_eq_members, Words.mem_members, contains]

theorem pairwise_lt_toList (s : IndexSet) : s.toList.Pairwise (· < ·) := by
  rw [toList_eq_members]
  exact Words.pairwise_lt_members 0 s.words

theorem nodup_toList (s : IndexSet) : s.toList.Nodup :=
  (pairwise_lt_toList s).imp Nat.ne_of_lt

theorem length_toList (s : IndexSet) : s.toList.length = s.size := by
  rw [toList_eq_members, Words.length_members, size, List.sum_eq_foldl, List.foldl_map]

theorem contains_eq_false_of_isEmpty (h : s.isEmpty = true) (i : Nat) :
    s.contains i = false := by
  have hwords : s.words = [] := List.isEmpty_iff.mp h
  simp [contains, Words.bit, hwords]

theorem contains_mul_add {k j : Nat} (hk : k < s.words.length) (hj : j < 64) :
    s.contains (64 * k + j) = s.words[k].toBitVec.getLsbD j := by
  rw [contains, Words.bit, Nat.mul_add_div (by decide), Nat.div_eq_of_lt hj, Nat.add_zero,
    Nat.mul_add_mod, Nat.mod_eq_of_lt hj, List.getElem?_eq_getElem hk, Option.any_some]

/-- The last word is not zero, so there are no more words than the members take up. -/
theorem length_words_le_iff {n : Nat} :
    s.words.length ≤ n ↔ ∀ i, s.contains i = true → i < 64 * n := by
  constructor
  · intro hle i hi
    by_contra hge
    have hend : s.words[i / 64]? = none := List.getElem?_eq_none (by omega)
    rw [contains, Words.bit, hend] at hi
    cases hi
  · intro hall
    by_contra hlt
    have hlast : s.words.length - 1 < s.words.length := by omega
    have hzero : s.words[s.words.length - 1] = 0 := by
      apply UInt64.toBitVec_inj.mp
      apply BitVec.eq_of_getLsbD_eq
      intro j hj
      rw [← contains_mul_add hlast hj]
      by_contra hset
      rw [UInt64.toBitVec_zero, BitVec.getLsbD_zero, Bool.not_eq_false] at hset
      have hsmall := hall _ hset
      omega
    apply s.trimmed
    rw [List.getLast?_eq_getElem?, List.getElem?_eq_getElem hlast, hzero]

theorem isEmpty_iff : s.isEmpty = true ↔ ∀ i, s.contains i = false := by
  rw [isEmpty, List.isEmpty_iff, ← List.length_eq_zero_iff, ← Nat.le_zero, length_words_le_iff]
  simp

/-- The same members are kept in the same words. -/
theorem eq_iff_contains {t : IndexSet} :
    s = t ↔ ∀ i, s.contains i = true ↔ t.contains i = true := by
  constructor
  · rintro rfl i
    rfl
  intro h
  have hlength : s.words.length = t.words.length := by
    apply le_antisymm
    · apply length_words_le_iff.mpr
      intro i hi
      exact length_words_le_iff.mp le_rfl i ((h i).mp hi)
    · apply length_words_le_iff.mpr
      intro i hi
      exact length_words_le_iff.mp le_rfl i ((h i).mpr hi)
  have hwords : s.words = t.words := by
    apply List.ext_getElem hlength
    intro k hs ht
    apply UInt64.toBitVec_inj.mp
    apply BitVec.eq_of_getLsbD_eq
    intro j hj
    rw [← contains_mul_add hs hj, ← contains_mul_add ht hj, Bool.eq_iff_iff, h]
  obtain ⟨_, _⟩ := s
  obtain ⟨_, _⟩ := t
  cases hwords
  rfl

theorem size_eq_zero_of_isEmpty (h : s.isEmpty = true) : s.size = 0 := by
  have hwords : s.words = [] := List.isEmpty_iff.mp h
  simp [size, hwords]

theorem size_pos_iff : 0 < s.size ↔ s.isEmpty = false := by
  rw [← length_toList, List.length_pos_iff_exists_mem, ← Bool.not_eq_true, isEmpty_iff]
  simp

/-- A set of at most one member has no two different members, and conversely. -/
theorem size_le_one_iff :
    s.size ≤ 1 ↔ ∀ i j, s.contains i = true → s.contains j = true → i = j := by
  simp only [← mem_toList, ← length_toList]
  constructor
  · intro h i j hi hj
    match hlist : s.toList with
    | [] => simp [hlist] at hi
    | [k] =>
        rw [hlist, List.mem_singleton] at hi hj
        rw [hi, hj]
    | _ :: _ :: _ => simp [hlist] at h
  · intro h
    by_contra hlt
    have hne := List.pairwise_iff_getElem.mp (nodup_toList s) 0 1 (by omega) (by omega) (by omega)
    exact hne (h _ _ (List.getElem_mem _) (List.getElem_mem _))

end IndexSet

end TableDiff
