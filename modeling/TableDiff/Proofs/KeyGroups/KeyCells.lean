import TableDiff.Proofs.KeyGroups.Verdict

/-!
# Equivalent literals and the cells of a key

Equivalent literals are those with equal canonical forms, whatever their types.  Keys are made of
canonical forms while rows are matched cell by cell, and the two never disagree: rows share a group
exactly when each key cell of the one matches the key cell of the other.
-/

namespace TableDiff.RowMatch

variable {config : Config} {m : CellMatcher} {s t : Table} {keyed keyed' : List (Key × Entry)}

theorem exists_mem_keyGroups_iff {e a : Entry} :
    (∃ g ∈ keyGroups keyed keyed', e ∈ g.expected ∧ a ∈ g.actual) ↔
      ∃ key key', (key, e) ∈ keyed ∧ (key', a) ∈ keyed' ∧ (key == key') = true := by
  constructor
  · rintro ⟨g, hg, he, ha⟩
    rw [keyGroups_eq] at hg
    obtain ⟨head, _, rfl⟩ := List.mem_map.mp hg
    obtain ⟨key, hmem, hbeq⟩ := mem_rowsWith_iff.mp he
    obtain ⟨key', hmem', hbeq'⟩ := mem_rowsWith_iff.mp ha
    exact ⟨key, key', hmem, hmem', BEq.trans hbeq (BEq.symm hbeq')⟩
  · rintro ⟨key, key', he, ha, hbeq⟩
    exact exists_mem_keyGroups_of_beq he ha hbeq

theorem exists_mem_keyGroups_iff_keyCellsMatch (hs : s.Built) (ht : t.Built)
    (hkeyed : keyedEntries config m s = .ok keyed) (hkeyed' : keyedEntries config m t = .ok keyed')
    {e a : Entry} (he : e ∈ Entry.ofTable s) (ha : a ∈ Entry.ofTable t) :
    (∃ g ∈ keyGroups keyed keyed', e ∈ g.expected ∧ a ∈ g.actual) ↔
      KeyCellsMatch m.conversion (keyOrder config s) (keyOrder config t) e.row a.row := by
  have hrow := Entry.row_mem_of_mem_ofTable he
  have hrow' := Entry.row_mem_of_mem_ofTable ha
  have hbeq_iff : ∀ {key key' : Key}, (key, e) ∈ keyed → (key', a) ∈ keyed' →
      ((key == key') = true ↔
        KeyCellsMatch m.conversion (keyOrder config s) (keyOrder config t) e.row a.row) := by
    intro key key' hmem hmem'
    exact rowKey_beq_iff (lt_length_of_mem_keyOrder hs hrow) (lt_length_of_mem_keyOrder ht hrow')
      ((mem_keyedEntries_iff hkeyed).mp hmem).2 ((mem_keyedEntries_iff hkeyed').mp hmem').2
  rw [exists_mem_keyGroups_iff]
  constructor
  · rintro ⟨key, key', hmem, hmem', hbeq⟩
    exact (hbeq_iff hmem hmem').mp hbeq
  · intro hcells
    rw [← keyedEntries_eq_ok hkeyed, List.mem_map] at he
    rw [← keyedEntries_eq_ok hkeyed', List.mem_map] at ha
    obtain ⟨⟨key, _⟩, hmem, rfl⟩ := he
    obtain ⟨⟨key', _⟩, hmem', rfl⟩ := ha
    exact ⟨key, key', hmem, hmem', (hbeq_iff hmem hmem').mpr hcells⟩

/-- Canonical forms tell equivalent literals together, and keys tell rows together whose key cells
match. -/
theorem canonical_tells_equivalent_and_grouped :
    (∀ a b : Literal, a.equivalent b .relaxed = true ↔
      (a.canonical .relaxed == b.canonical .relaxed) = true) ∧
    Equivalence (fun a b : Literal => a.equivalent b .relaxed = true) ∧
    ∀ (config : Config) (m : CellMatcher) (s t : Table), s.Built → t.Built →
      (∀ row ∈ s.rows, s.ConcreteKey row) → (∀ row ∈ t.rows, t.ConcreteKey row) →
      ∃ keyed keyed', keyedEntries config m s = .ok keyed ∧ keyedEntries config m t = .ok keyed' ∧
        ∀ e ∈ Entry.ofTable s, ∀ a ∈ Entry.ofTable t,
          (∃ g ∈ keyGroups keyed keyed', e ∈ g.expected ∧ a ∈ g.actual) ↔
            KeyCellsMatch m.conversion (keyOrder config s) (keyOrder config t) e.row a.row := by
  refine ⟨?_, ?_, ?_⟩
  · intro a b
    rw [Literal.canonical_beq_iff]
  · constructor
    · intro a
      exact Literal.equivalent_refl a .relaxed
    · exact Literal.equivalent_symm
    · exact Literal.equivalent_trans
  · intro config m s t hs ht hconcrete hconcrete'
    obtain ⟨keyed, hkeyed⟩ := exists_keyedEntries_eq_ok config m hconcrete
    obtain ⟨keyed', hkeyed'⟩ := exists_keyedEntries_eq_ok config m hconcrete'
    refine ⟨keyed, keyed', hkeyed, hkeyed', ?_⟩
    intro e he a ha
    exact exists_mem_keyGroups_iff_keyCellsMatch hs ht hkeyed hkeyed' he ha

/-- A whole number and a decimal of one value are the same key. -/
theorem canonical_tells_equivalent_and_grouped_idNote :
    ∃ keyed keyed',
      keyedEntries byNameRelaxed
        (.ofColumns byNameRelaxed Table.idNote.columns Table.noteId.columns) .idNote = .ok keyed ∧
      keyedEntries byNameRelaxed
        (.ofColumns byNameRelaxed Table.idNote.columns Table.noteId.columns) .noteId = .ok keyed' ∧
      ∃ g ∈ keyGroups keyed keyed',
        ⟨0, 0, .threeAny⟩ ∈ g.expected ∧ ⟨0, 0, .lateThree⟩ ∈ g.actual := by
  obtain ⟨keyed, keyed', hkeyed, hkeyed', hgroups⟩ :=
    canonical_tells_equivalent_and_grouped.2.2 byNameRelaxed
      (.ofColumns byNameRelaxed Table.idNote.columns Table.noteId.columns) .idNote .noteId
      Table.built_idNote Table.built_noteId
      (List.forall_mem_singleton.mpr Table.concreteKey_threeAny)
      (List.forall_mem_singleton.mpr Table.concreteKey_lateThree)
  refine ⟨keyed, keyed', hkeyed, hkeyed', ?_⟩
  apply (hgroups _ (Entry.mem_ofTable rfl) _ (Entry.mem_ofTable rfl)).mpr
  have hexpected : keyOrder byNameRelaxed .idNote = [0] := by cbv
  have hactual : keyOrder byNameRelaxed .noteId = [1] := by cbv
  rw [conversion_ofColumns, hexpected, hactual]
  exact .cons ⟨_, _, rfl, rfl, rfl⟩ .nil

end TableDiff.RowMatch
