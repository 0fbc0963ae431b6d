import TableDiff.Proofs.IndexSet

/-!
# Sets of indices are finite sets

A set of indices is compared by its words and is empty if it has none.  This is right because every
operation gives up the zero words at the end: whatever operations have made two sets, they are the
same set if and only if the same operations make the same finite set of numbers.  Going through a
set with a cursor lists this finite set in ascending order.
-/

namespace TableDiff

/-- Sets the bit of an index, after as many zero words as are missing before it. -/
def Words.setBit (ws : List UInt64) (i : Nat) : List UInt64 :=
  Words.setBits (Words.mask i) ws (i / 64)

theorem Words.bit_foldl_setBit (indices : List Nat) (ws : List UInt64) (i : Nat) :
    Words.bit (indices.foldl Words.setBit ws) i = (decide (i ∈ indices) || Words.bit ws i) := by
  induction indices generalizing ws with
  | nil => simp
  | cons k indices ih =>
      rw [List.foldl_cons, ih, Words.setBit, Words.bit_setBits_mask, ← Bool.or_assoc,
        ← Bool.decide_or]
      simp only [List.mem_cons, or_comm]

namespace IndexSet

/-- Inserting indices one by one leaves the words that come from setting all bits in one list of
words, which is trimmed once. -/
theorem ofList_eq_ofWords (indices : List Nat) :
    ofList indices = ofWords (indices.foldl Words.setBit []) := by
  rw [eq_iff_contains]
  intro i
  rw [contains_ofList, contains_ofWords, Words.bit_foldl_setBit]
  simp [Words.bit]

/-! ## Whatever operations have made them -/

/-- The operations that make a set. -/
inductive History
  | empty
  | ofList (indices : List Nat)
  | insert (earlier : History) (i : Nat)
  | without (earlier other : History)

namespace History

def run : History → IndexSet
  | empty => .empty
  | ofList indices => .ofList indices
  | insert earlier i => earlier.run.insert i
  | without earlier other => earlier.run.without other.run

/-- The finite set that the operations make. -/
def members : History → Finset Nat
  | empty => ∅
  | ofList indices => indices.toFinset
  | insert earlier i => Insert.insert i earlier.members
  | without earlier other => earlier.members \ other.members

theorem contains_run (h : History) (i : Nat) : h.run.contains i = true ↔ i ∈ h.members := by
  induction h with
  | empty => simp [run, members]
  | ofList indices => simp [run, members, contains_ofList]
  | insert earlier k ih => simp [run, members, contains_insert, ih]
  | without earlier other ih ihOther =>
      simp [run, members, contains_without, ih, ← ihOther]

theorem run_eq_run_iff (h h' : History) : h.run = h'.run ↔ h.members = h'.members := by
  simp only [eq_iff_contains, contains_run, Finset.ext_iff]

theorem isEmpty_run_iff (h : History) : h.run.isEmpty = true ↔ h.members = ∅ := by
  simp only [isEmpty_iff, ← Bool.not_eq_true, contains_run, Finset.eq_empty_iff_forall_notMem]

/-- Sets stand for the finite sets that the same operations make: they contain the same indices,
have no more words than these take up, and are equal or empty exactly if these are. -/
theorem run_represents (h h' : History) :
    (∀ indices i, (IndexSet.ofList indices).contains i = true ↔ i ∈ indices) ∧
      (∀ indices, IndexSet.ofList indices = ofWords (indices.foldl Words.setBit [])) ∧
      (∀ i j, (h.run.insert i).contains j = true ↔ j = i ∨ h.run.contains j = true) ∧
      (∀ j, (h.run.without h'.run).contains j = true ↔
        h.run.contains j = true ∧ ¬h'.run.contains j = true) ∧
      (∀ i, h.run.contains i = true ↔ i ∈ h.members) ∧
      (h.run.words.getLast? ≠ some 0 ∧
        ∀ n, h.run.words.length ≤ n ↔ ∀ i ∈ h.members, i < 64 * n) ∧
      (h.run = h'.run ↔ h.members = h'.members) ∧
        (h.run.isEmpty = true ↔ h.members = ∅) := by
  refine ⟨?_, ofList_eq_ofWords, ?_, ?_, h.contains_run, ⟨h.run.trimmed, ?_⟩,
    run_eq_run_iff h h', h.isEmpty_run_iff⟩
  · intro indices i
    rw [contains_ofList, decide_eq_true_eq]
  · intro i j
    rw [contains_insert, Bool.or_eq_true, decide_eq_true_eq]
  · intro j
    rw [contains_without, Bool.and_eq_true, Bool.not_eq_true', Bool.not_eq_true]
  · intro n
    simp only [length_words_le_iff, contains_run]

end History

/-! ## Going through the members -/

namespace Cursor

/-- Asking for the next member again and again, until there is none, gives these indices. -/
inductive Yields : Cursor → List Nat → Prop
  | done {c : Cursor} (h : c.next? = none) : Yields c []
  | next {c rest : Cursor} {i : Nat} {indices : List Nat} (h : c.next? = some (i, rest))
      (hrest : Yields rest indices) : Yields c (i :: indices)

theorem yields_iff {c : Cursor} {indices : List Nat} : c.Yields indices ↔ indices = c.items := by
  constructor
  · intro h
    induction h with
    | done hend => rw [items_eq, hend]
    | next hnext _ ih => rw [items_eq, hnext, ih]
  · rintro rfl
    fun_induction items c with
    | case1 c hend => exact .done hend
    | case2 c i rest hnext ih => exact .next hnext ih

end Cursor

/-- The calls for the next member end; they list the members in ascending order, as many as the size
says, and these members make the set again. -/
theorem cursor_lists_members (s : IndexSet) :
    (∀ indices, s.cursor.Yields indices ↔ indices = s.toList) ∧
      s.toList.Pairwise (· < ·) ∧
      (∀ i, i ∈ s.toList ↔ s.contains i = true) ∧
      s.size = s.toList.length ∧
      ofList s.toList = s := by
  refine ⟨?_, pairwise_lt_toList s, ?_, (length_toList s).symm, ?_⟩
  · intro indices
    exact Cursor.yields_iff
  · intro i
    exact mem_toList
  · rw [eq_iff_contains]
    intro i
    rw [contains_ofList, decide_eq_true_eq, mem_toList]

end IndexSet

end TableDiff
