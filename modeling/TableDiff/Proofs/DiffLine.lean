import TableDiff.DiffLine
import TableDiff.Proofs.PerfectMatching

/-!
# What the lines of a diff show

Lines cover a list of expected and a list of actual indices when they show every one of them exactly
once and nothing else.  Lines that cover both sides and are complete are a one-to-one pairing of the
two sides.
-/

namespace TableDiff

section

variable {α β γ : Type} (f : α → Option β) (g : α → Option γ)

theorem countP_isNone_add_length_filterMap (l : List α) :
    l.countP (fun a => (f a).isNone) + (l.filterMap f).length = l.length := by
  have hsome : l.countP (fun a => decide ¬(f a).isNone = true) =
      l.countP fun a => (f a).isSome := by
    apply List.countP_congr
    intro a _
    simp [Option.isSome_iff_ne_none]
  rw [List.length_filterMap_eq_countP, ← hsome]
  exact (List.length_eq_countP_add_countP _).symm

theorem countP_isNone_le_length_filterMap {l : List α}
    (h : ∀ a ∈ l, ¬(f a = none ∧ g a = none)) :
    l.countP (fun a => (f a).isNone) ≤ (l.filterMap g).length := by
  rw [List.length_filterMap_eq_countP]
  apply List.countP_mono_left
  intro a ha hf
  have hnone := h a ha
  rw [Option.isNone_iff_eq_none] at hf
  rw [Option.isSome_iff_ne_none]
  intro hg
  exact hnone ⟨hf, hg⟩

end

attribute [ext] DiffLine

namespace DiffLine

/-- The line with its two sides exchanged. -/
def swap (line : DiffLine) : DiffLine := ⟨line.actual?, line.expected?⟩

@[simp] theorem swap_both (i j : Nat) : (both i j).swap = both j i := rfl

@[simp] theorem swap_expectedOnly (i : Nat) : (expectedOnly i).swap = actualOnly i := rfl

@[simp] theorem swap_actualOnly (j : Nat) : (actualOnly j).swap = expectedOnly j := rfl

theorem swap_involutive : Function.Involutive swap := by
  intro line
  rfl

/-- Every index of either side stands on exactly one line, and no line is empty. -/
structure Covers (lines : List DiffLine) (expected actual : List Nat) : Prop where
  expected_perm : (lines.filterMap (·.expected?)).Perm expected
  actual_perm : (lines.filterMap (·.actual?)).Perm actual
  nonempty : ∀ line ∈ lines, line ≠ ⟨none, none⟩

variable {lines lines' : List DiffLine} {expected expected' actual actual' : List Nat}

theorem exists_eq_both_of_isComplete {line : DiffLine} (h : line.isComplete = true) :
    ∃ i j, line = both i j := by
  rcases Bool.and_eq_true_iff.mp h with ⟨hi, hj⟩
  rcases Option.isSome_iff_exists.mp hi with ⟨i, hi⟩
  rcases Option.isSome_iff_exists.mp hj with ⟨j, hj⟩
  exact ⟨i, j, DiffLine.ext hi hj⟩

namespace Covers

theorem nil : Covers [] [] [] where
  expected_perm := .refl _
  actual_perm := .refl _
  nonempty := by
    intro _ hline
    cases hline

theorem append
    (h : Covers lines expected actual) (h' : Covers lines' expected' actual') :
    Covers (lines ++ lines') (expected ++ expected') (actual ++ actual') where
  expected_perm := by
    rw [List.filterMap_append]
    exact h.expected_perm.append h'.expected_perm
  actual_perm := by
    rw [List.filterMap_append]
    exact h.actual_perm.append h'.actual_perm
  nonempty := by
    intro line hline
    rcases List.mem_append.mp hline with hline | hline
    · exact h.nonempty line hline
    · exact h'.nonempty line hline

theorem perm
    (h : Covers lines expected actual)
    (hexpected : expected.Perm expected') (hactual : actual.Perm actual') :
    Covers lines expected' actual' where
  expected_perm := h.expected_perm.trans hexpected
  actual_perm := h.actual_perm.trans hactual
  nonempty := h.nonempty

theorem both (i j : Nat) : Covers [DiffLine.both i j] [i] [j] where
  expected_perm := .refl _
  actual_perm := .refl _
  nonempty := by simp [DiffLine.both]

/-- No line is repeated, because its index would be. -/
theorem nodup (h : Covers lines expected actual) (hexpected : expected.Nodup)
    (hactual : actual.Nodup) : lines.Nodup := by
  rw [List.nodup_iff_sublist]
  intro line hsub
  have hexpected' := List.nodup_iff_sublist.mp (h.expected_perm.nodup_iff.mpr hexpected)
  have hactual' := List.nodup_iff_sublist.mp (h.actual_perm.nodup_iff.mpr hactual)
  obtain ⟨expected?, actual?⟩ := line
  cases expected? with
  | some i => exact hexpected' i (by simpa using hsub.filterMap (·.expected?))
  | none =>
      cases actual? with
      | some j => exact hactual' j (by simpa using hsub.filterMap (·.actual?))
      | none => exact h.nonempty _ (hsub.subset List.mem_cons_self) rfl

/-- Complete lines that cover two sides pair them one to one. -/
theorem perfectMatching
    {R : Nat → Nat → Prop} (h : Covers lines expected actual)
    (hcomplete : ∀ line ∈ lines, ∃ i j, line = DiffLine.both i j ∧ R i j) :
    ∃ pairs, lines = pairs.map (fun p => DiffLine.both p.1 p.2) ∧
      PerfectMatching R expected actual pairs := by
  induction lines generalizing expected actual with
  | nil =>
      refine ⟨[], rfl, h.expected_perm, h.actual_perm, ?_⟩
      intro _ hp
      cases hp
  | cons line lines ih =>
      rcases hcomplete line List.mem_cons_self with ⟨i, j, rfl, hij⟩
      have hrest : Covers lines (lines.filterMap (·.expected?)) (lines.filterMap (·.actual?)) := by
        refine ⟨.refl _, .refl _, ?_⟩
        intro l hl
        exact h.nonempty l (List.mem_cons_of_mem _ hl)
      have htail : ∀ l ∈ lines, ∃ i j, l = DiffLine.both i j ∧ R i j := by
        intro l hl
        exact hcomplete l (List.mem_cons_of_mem _ hl)
      rcases ih hrest htail with ⟨pairs, rfl, hpairs⟩
      exact ⟨(i, j) :: pairs, rfl,
        (hpairs.cons hij).perm h.expected_perm h.actual_perm⟩

theorem countP_expected?_isNone (h : Covers lines expected actual) :
    lines.countP (·.expected?.isNone) + expected.length = lines.length := by
  rw [← h.expected_perm.length_eq]
  exact countP_isNone_add_length_filterMap _ lines

theorem countP_actual?_isNone (h : Covers lines expected actual) :
    lines.countP (·.actual?.isNone) + actual.length = lines.length := by
  rw [← h.actual_perm.length_eq]
  exact countP_isNone_add_length_filterMap _ lines

theorem countP_expected?_isNone_le (h : Covers lines expected actual) :
    lines.countP (·.expected?.isNone) ≤ actual.length := by
  rw [← h.actual_perm.length_eq]
  apply countP_isNone_le_length_filterMap
  intro line hline hnone
  exact h.nonempty line hline (DiffLine.ext hnone.1 hnone.2)

theorem countP_actual?_isNone_le (h : Covers lines expected actual) :
    lines.countP (·.actual?.isNone) ≤ expected.length := by
  rw [← h.expected_perm.length_eq]
  apply countP_isNone_le_length_filterMap
  intro line hline hnone
  exact h.nonempty line hline (DiffLine.ext hnone.2 hnone.1)

end Covers

/-! ## Lining up by position -/

theorem covers_map_expectedOnly (is : List Nat) : Covers (is.map expectedOnly) is [] where
  expected_perm := by simp [List.filterMap_map, Function.comp_def, expectedOnly]
  actual_perm := by simp [List.filterMap_map, Function.comp_def, expectedOnly]
  nonempty := by simp [expectedOnly]

theorem covers_map_actualOnly (js : List Nat) : Covers (js.map actualOnly) [] js where
  expected_perm := by simp [List.filterMap_map, Function.comp_def, actualOnly]
  actual_perm := by simp [List.filterMap_map, Function.comp_def, actualOnly]
  nonempty := by simp [actualOnly]

theorem covers_zip (expected actual : List Nat) :
    Covers (zip expected actual) expected actual := by
  fun_induction zip expected actual with
  | case1 actual => exact covers_map_actualOnly actual
  | case2 expected _ => exact covers_map_expectedOnly expected
  | case3 e expected a actual ih => exact (Covers.both e a).append ih

theorem covers_positional (m n : Nat) :
    Covers (positional m n) (List.range m) (List.range n) :=
  covers_zip _ _

theorem zip_eq_map_both {is js : List Nat} (h : is.length = js.length) :
    zip is js = (is.zip js).map fun p => both p.1 p.2 := by
  fun_induction zip is js with
  | case1 js =>
      rw [List.length_nil, eq_comm, List.length_eq_zero_iff] at h
      simp [h]
  | case2 is _ =>
      rw [List.length_nil, List.length_eq_zero_iff] at h
      simp [h]
  | case3 e is a js ih =>
      rw [ih (by simpa using h)]
      rfl

theorem map_swap_zip (is js : List Nat) : (zip is js).map swap = zip js is := by
  fun_induction zip is js with
  | case1 js => cases js <;> simp [zip]
  | case2 is _ => cases is <;> simp [zip]
  | case3 e is a js ih => simp [zip, ih]

theorem map_swap_positional (m n : Nat) : (positional m n).map swap = positional n m :=
  map_swap_zip _ _

theorem positional_self (n : Nat) :
    positional n n = (List.range n).map fun i => both i i := by
  rw [positional, zip_eq_map_both rfl, List.zip_eq_zipWith, List.zipWith_self, List.map_map]
  rfl

end DiffLine

end TableDiff
