import TableDiff.Proofs.Columns.Faults
import TableDiff.Proofs.Outcome.RowCount

/-!
# How a comparison can fail

A comparison with room for a dead end never pairs a row twice and never has a fault of its
configuration.  It fails for the names of its columns, whatever the rows are; for a predicate that
has to be evaluated as a value; or in a search for the partners of rows with predicates, at the
limit.
-/

namespace TableDiff

namespace Comparison

variable {c : Comparison} {fault : MatchError}

theorem outcome_eq_error_iff (hlimit : 1 ≤ c.config.permutationLimit) :
    c.outcome = .error fault ↔
      checkNames c.config c.expected.columns c.actual.columns = .error fault ∨
        (c.columnsMatch = .ok true ∧
          matchRows c.config c.cellMatcher c.expected c.actual = .error fault) := by
  have hvalid : c.config.validate = .ok () := if_neg (Nat.ne_of_gt hlimit)
  rw [← columnsMatch_eq_error_iff]
  cases hcolumns : c.columnsMatch with
  | error e =>
      rw [outcome_of_columnsMatch_eq_error hvalid hcolumns]
      simp
  | ok matched =>
      cases matched with
      | false =>
          rw [outcome_of_columnsMatch_eq_false hvalid hcolumns]
          simp
      | true =>
          rw [outcome_of_columnsMatch hvalid hcolumns]
          cases matchRows c.config c.cellMatcher c.expected c.actual with
          | ok r => simp [Except.map]
          | error e => simp [Except.map]

/-- The faults of names are found before any row is looked at. -/
theorem outcome_nameFault_iff (hlimit : 1 ≤ c.config.permutationLimit) :
    c.outcome = .error fault ∧ fault.isNameFault = true ↔
      checkNames c.config c.expected.columns c.actual.columns = .error fault := by
  rw [outcome_eq_error_iff hlimit]
  constructor
  · rintro ⟨hcheck | ⟨_, hrows⟩, hname⟩
    · exact hcheck
    · rcases table_or_limit_of_matchRows_eq_error hrows with ⟨e, rfl⟩ | rfl
      · cases hname
      · cases hname
  · intro hcheck
    exact ⟨.inl hcheck, isNameFault_of_checkNames hcheck⟩

/-- With room for a dead end and no predicate where a value is needed, a comparison fails for the
names of its columns, exactly when columns go by name and a name is missing or repeated, or at the
limit of a search for the partners of rows with predicates.  Some faults it never has. -/
theorem outcome_faults (hlimit : 1 ≤ c.config.permutationLimit) :
    (∀ fault, c.outcome = .error fault →
        (∀ side i, fault ≠ .indexReused side i) ∧ fault ≠ .configSyntax ∧
          fault ≠ .configLimit ∧ fault ≠ .configUnreadable) ∧
      ((∃ fault, c.outcome = .error fault ∧ fault.isNameFault = true) ↔
        c.config.columnMode = .byName ∧
          ∃ columns ∈ [c.expected.columns, c.actual.columns],
            (∃ column ∈ columns, column.name? = none) ∨
              ¬(columns.map (·.normalizedName c.config.nameCase)).Nodup) ∧
      (c.actual.PredicateFree →
        (c.config.rowMode = .byKey → ∀ row ∈ c.expected.rows, c.expected.ConcreteKey row) →
        ∀ fault, c.outcome = .error fault →
          fault.isNameFault = true ∨
            (fault = .tooManyPermutations c.config.permutationLimit ∧
              c.config.rowMode ≠ .ordered ∧ ∃ row ∈ c.expected.rows, row.hasPredicate = true)) := by
  refine ⟨?_, ?_, ?_⟩
  · intro fault hfault
    rcases (outcome_eq_error_iff hlimit).mp hfault with hcheck | ⟨_, hrows⟩
    · have hname := isNameFault_of_checkNames hcheck
      refine ⟨?_, ?_, ?_, ?_⟩
      · rintro side i rfl
        cases hname
      all_goals
        rintro rfl
        cases hname
    · rcases table_or_limit_of_matchRows_eq_error hrows with ⟨e, rfl⟩ | rfl <;> simp
  · rw [← exists_checkNames_eq_error_iff]
    apply exists_congr
    intro fault
    exact outcome_nameFault_iff hlimit
  · intro ht hconcrete fault hfault
    rcases (outcome_eq_error_iff hlimit).mp hfault with hcheck | ⟨_, hrows⟩
    · exact .inl (isNameFault_of_checkNames hcheck)
    · exact .inr (limit_of_matchRows_eq_error ht hconcrete hrows)

theorem outcome_faults_nineOneOneAny :
    (∃ fault, (inAnyOrder { permutationLimit := 1 } .nineOneOneAny .oneTwoThree).outcome =
        .error fault ∧ fault = .tooManyPermutations 1) ∧
      ∃ fault, (inAnyOrder { permutationLimit := 1, columnMode := .byName } .nineOneOneAny
        .oneTwoThree).outcome = .error fault ∧ fault.isNameFault = true := by
  have hsearch : (inAnyOrder { permutationLimit := 1 } .nineOneOneAny .oneTwoThree).outcome =
      .error (.tooManyPermutations 1) := by
    cbv
  obtain ⟨_, _, hrows⟩ := outcome_faults
    (c := inAnyOrder { permutationLimit := 1 } .nineOneOneAny .oneTwoThree) (by decide)
  obtain ⟨_, hnames, _⟩ := outcome_faults (c := inAnyOrder
    { permutationLimit := 1, columnMode := .byName } .nineOneOneAny .oneTwoThree) (by decide)
  have hlimit := hrows Table.predicateFree_oneTwoThree (fun hmode => by cases hmode) _ hsearch
  refine ⟨⟨_, hsearch, (hlimit.resolve_left (by decide)).1⟩, hnames.mpr ⟨rfl, ?_⟩⟩
  exact ⟨_, List.mem_cons_self, .inl ⟨_, List.mem_cons_self, rfl⟩⟩

end Comparison

end TableDiff
