import Mathlib.Data.List.Destutter
import Mathlib.Data.List.Duplicate
import Mathlib.Data.String.Basic
import TableDiff.Columns

/-!
# Names that repeat

In a sorted list equal names stand side by side.  The names that are followed by themselves are
therefore just those that occur more than once, however often they do, and without repetitions they
are an ascending list.
-/

namespace TableDiff

variable {names : List String} {name : String}

theorem eraseReps_eq_destutter (names : List String) :
    names.eraseReps = names.destutter (· ≠ ·) := by
  have hloop : ∀ (names kept : List String) (a : String),
      List.eraseRepsBy.loop (· == ·) a names kept =
        kept.reverse ++ names.destutter' (· ≠ ·) a := by
    intro names
    induction names with
    | nil =>
        intro kept a
        simp [List.eraseRepsBy.loop]
    | cons b names ih =>
        intro kept a
        unfold List.eraseRepsBy.loop
        by_cases hab : a = b
        · rw [beq_iff_eq.mpr hab, ih, List.destutter'_cons_neg _ (not_not_intro hab)]
        · rw [beq_false_of_ne hab, List.destutter'_cons_pos _ hab]
          dsimp only
          rw [ih, List.reverse_cons, List.append_assoc, List.singleton_append]
  cases names with
  | nil => rfl
  | cons a names => exact hloop names [] a

@[simp] theorem mem_eraseReps : name ∈ names.eraseReps ↔ name ∈ names := by
  have hkept : ∀ (names : List String) (a : String),
      name ∈ names.destutter' (· ≠ ·) a ↔ name = a ∨ name ∈ names := by
    intro names
    induction names with
    | nil =>
        intro a
        simp
    | cons b names ih =>
        intro a
        by_cases hab : a = b
        · rw [List.destutter'_cons_neg _ (not_not_intro hab), ih, hab]
          simp
        · rw [List.destutter'_cons_pos _ hab, List.mem_cons, ih, List.mem_cons]
  rw [eraseReps_eq_destutter]
  cases names with
  | nil => simp
  | cons a names => rw [List.destutter_cons', hkept, List.mem_cons]

/-- The names that are followed by themselves, as often as they are. -/
def doubled (names : List String) : List String :=
  ((names.zip names.tail).filter fun p => p.1 == p.2).map (·.1)

theorem repeated_eq (names : List String) : repeated names = (doubled names).eraseReps := rfl

theorem doubled_cons_cons (a b : String) (names : List String) :
    doubled (a :: b :: names) =
      if a = b then a :: doubled (b :: names) else doubled (b :: names) := by
  unfold doubled
  by_cases hab : a = b
  · rw [if_pos hab, List.tail_cons, List.zip_cons_cons, List.filter_cons_of_pos (by simp [hab])]
    rfl
  · rw [if_neg hab, List.tail_cons, List.zip_cons_cons, List.filter_cons_of_neg (by simp [hab])]
    rfl

theorem doubled_sublist (names : List String) : (doubled names).Sublist names := by
  induction names with
  | nil => exact List.nil_sublist _
  | cons a names ih =>
      cases names with
      | nil => exact List.nil_sublist _
      | cons b names =>
          rw [doubled_cons_cons]
          split
          · exact ih.cons_cons a
          · exact ih.cons a

/-- A name that is not followed by itself does not come again. -/
theorem not_mem_of_ne_next {a b : String}
    (h : (a :: b :: names).Pairwise fun a b => (compare a b).isLE = true) (hab : a ≠ b) :
    a ∉ b :: names := by
  obtain ⟨hle, hrest⟩ := List.pairwise_cons.mp h
  intro hmem
  rcases List.mem_cons.mp hmem with heq | hmem
  · exact hab heq
  · have hge := (List.pairwise_cons.mp hrest).1 a hmem
    exact hab (Std.LawfulEqCmp.eq_of_compare
      (Std.OrientedCmp.isLE_antisymm (hle b List.mem_cons_self) hge))

theorem mem_doubled_iff (h : names.Pairwise fun a b => (compare a b).isLE = true) :
    name ∈ doubled names ↔ List.Duplicate name names := by
  induction names with
  | nil => simp [doubled]
  | cons a names ih =>
      cases names with
      | nil => simp [doubled]
      | cons b names =>
          rw [doubled_cons_cons, List.duplicate_cons_iff, ← ih (List.pairwise_cons.mp h).2]
          by_cases hab : a = b
          · rw [if_pos hab, List.mem_cons, hab, eq_comm, and_iff_left_of_imp]
            rintro rfl
            exact List.mem_cons_self
          · rw [if_neg hab]
            constructor
            · exact .inr
            · rintro (⟨rfl, hmem⟩ | hmem)
              · exact absurd hmem (not_mem_of_ne_next h hab)
              · exact hmem

theorem mem_repeated_iff (h : names.Pairwise fun a b => (compare a b).isLE = true) :
    name ∈ repeated names ↔ List.Duplicate name names := by
  rw [repeated_eq, mem_eraseReps, mem_doubled_iff h]

theorem repeated_eq_nil_iff (h : names.Pairwise fun a b => (compare a b).isLE = true) :
    repeated names = [] ↔ names.Nodup := by
  rw [List.eq_nil_iff_forall_not_mem, List.nodup_iff_forall_not_duplicate]
  apply forall_congr'
  intro name
  rw [mem_repeated_iff h]

theorem pairwise_lt_repeated (h : names.Pairwise fun a b => (compare a b).isLE = true) :
    (repeated names).Pairwise (· < ·) := by
  rw [repeated_eq, eraseReps_eq_destutter]
  have hsub := (List.destutter_sublist (· ≠ ·) (doubled names)).trans (doubled_sublist names)
  have hle := (h.sublist hsub).isChain
  have hne := List.isChain_destutter (· ≠ ·) (doubled names)
  rw [← List.isChain_iff_pairwise]
  rw [List.isChain_iff_getElem] at hle hne ⊢
  intro i hi
  exact lt_of_le_of_ne (Std.LawfulBCmp.isLE_iff_le.mp (hle i hi)) (hne i hi)

end TableDiff
