import TableDiff.Proofs.Table

/-!
# Tables over whole runs

Rows are pushed into a table, or into a copy of it that takes its place when the row is accepted.
Whatever calls are made, and whichever of them are rejected, every row has one cell per column and
every literal the type of its column.  The columns are those that were declared, except that a
column without a type has taken that of the first literal it was given in an accepted row.  Rows
that are there stay as they are.
-/

namespace TableDiff

namespace Column

/-- The column after a cell of the given type, if the cell has one, was put into it. -/
def retype (c : Column) (type? : Option DataType) : Column :=
  if c.type = .any then { c with type := type?.getD .any } else c

variable {c : Column}

@[simp] theorem retype_none (c : Column) : c.retype none = c := by
  obtain ⟨name?, type, isKey⟩ := c
  simp [retype, eq_comm]

@[simp] theorem name?_retype (type? : Option DataType) : (c.retype type?).name? = c.name? := by
  unfold retype
  split <;> rfl

@[simp] theorem isKey_retype (type? : Option DataType) : (c.retype type?).isKey = c.isKey := by
  unfold retype
  split <;> rfl

theorem retype_of_ne_any (h : c.type ≠ .any) (type? : Option DataType) : c.retype type? = c :=
  if_neg h

theorem type_retype_of_any (h : c.type = .any) (type? : Option DataType) :
    (c.retype type?).type = type?.getD .any := by
  rw [retype, if_pos h]

/-- Only the first type counts. -/
theorem retype_retype {type? : Option DataType} (h : type? ≠ some .any)
    (later? : Option DataType) : (c.retype type?).retype later? = c.retype (type?.or later?) := by
  cases type? with
  | none => rw [retype_none, Option.none_or]
  | some type =>
      rw [Option.some_or]
      apply retype_of_ne_any
      by_cases hany : c.type = .any
      · rw [type_retype_of_any hany]
        intro htype
        exact h (congrArg some htype)
      · rw [retype_of_ne_any hany]
        exact hany

theorem store_eq_ok {next : Column} {index : Nat} {conversion : ConversionMode}
    {cell stored : Value} (h : c.store index conversion cell = .ok (next, stored)) :
    next = c.retype cell.dataType? := by
  cases cell with
  | null =>
      cases h
      exact (retype_none _).symm
  | predicate p =>
      cases h
      exact (retype_none _).symm
  | literal l =>
      rw [store] at h
      split at h
      · next hany =>
        cases h
        rw [retype, if_pos hany]
        rfl
      · next hany =>
        rw [retype_of_ne_any hany]
        split at h
        · cases h
          rfl
        · split at h
          · cases h
            rfl
          · cases h

end Column

theorem Value.dataType?_ne_any (v : Value) : v.dataType? ≠ some .any := by
  cases v with
  | literal l =>
      intro h
      exact l.dataType_ne_any (Option.some.inj h)
  | null => simp [dataType?]
  | predicate p => simp [dataType?]

namespace Table

/-! ## Calls -/

/-- Pushes a row in place; a table that rejects the row is left as it is. -/
def push (t : Table) (cells : List Value) : Except TableError Unit × Table :=
  match t.pushRow cells with
  | .ok next => (.ok (), next)
  | .error e => (.error e, t)

/-- The chaining form of `push`, which gives the table back. -/
def withRow (t : Table) (cells : List Value) : Except TableError Table :=
  match t.push cells with
  | (.ok (), next) => .ok next
  | (.error e, _) => .error e

inductive Call where
  | push (cells : List Value)
  /-- Replaces the table by a copy with the row, if there is one. -/
  | withRow (cells : List Value)

def Call.cells : Call → List Value
  | push cells => cells
  | withRow cells => cells

/-- The result of a call and the table afterwards. -/
def perform (t : Table) : Call → Except TableError Unit × Table
  | .push cells => t.push cells
  | .withRow cells =>
    match t.withRow cells with
    | .ok next => (.ok (), next)
    | .error e => (.error e, t)

/-- The table after calls in turn. -/
def run (t : Table) : List Call → Table
  | [] => t
  | call :: calls => (t.perform call).2.run calls

/-- The cells that were handed over in the calls that are accepted. -/
def accepted (t : Table) : List Call → List (List Value)
  | [] => []
  | call :: calls =>
    match t.perform call with
    | (.ok (), next) => call.cells :: next.accepted calls
    | (.error _, next) => next.accepted calls

/-- The type of the first literal among the cells at `i`. -/
def firstType? (i : Nat) (rows : List (List Value)) : Option DataType :=
  rows.findSome? fun cells => cells[i]?.bind Value.dataType?

theorem firstType?_cons (i : Nat) (cells : List Value) (rows : List (List Value)) :
    firstType? i (cells :: rows) = (cells[i]?.bind Value.dataType?).or (firstType? i rows) := by
  rw [firstType?, List.findSome?_cons]
  cases cells[i]?.bind Value.dataType? with
  | none => rfl
  | some type => rfl

section

variable {t next : Table} {call : Call} {e : TableError}

theorem perform_of_ok (h : t.pushRow call.cells = .ok next) : t.perform call = (.ok (), next) := by
  cases call with
  | push cells => simp only [perform, push, show t.pushRow cells = .ok next from h]
  | withRow cells => simp only [perform, withRow, push, show t.pushRow cells = .ok next from h]

theorem perform_of_error (h : t.pushRow call.cells = .error e) :
    t.perform call = (.error e, t) := by
  cases call with
  | push cells => simp only [perform, push, show t.pushRow cells = .error e from h]
  | withRow cells => simp only [perform, withRow, push, show t.pushRow cells = .error e from h]

/-- Both calls add their row or are rejected. -/
theorem perform_cases (t : Table) (call : Call) :
    (∃ next, t.pushRow call.cells = .ok next ∧ t.perform call = (.ok (), next)) ∨
      ∃ e, t.perform call = (.error e, t) := by
  cases h : t.pushRow call.cells with
  | ok next => exact .inl ⟨next, rfl, perform_of_ok h⟩
  | error e => exact .inr ⟨e, perform_of_error h⟩

theorem perform_eq_error (h : (t.perform call).1 = .error e) : (t.perform call).2 = t := by
  rcases perform_cases t call with ⟨next, _, hperform⟩ | ⟨e, hperform⟩
  · rw [hperform] at h
    cases h
  · rw [hperform]

/-! ## Single steps -/

theorem Built.perform (h : t.Built) (call : Call) : (t.perform call).2.Built := by
  rcases perform_cases t call with ⟨next, hpush, hperform⟩ | ⟨e, hperform⟩
  · rw [hperform]
    exact h.pushRow call.cells hpush
  · rw [hperform]
    exact h

theorem rows_prefix_perform (t : Table) (call : Call) : t.rows <+: (t.perform call).2.rows := by
  rcases perform_cases t call with ⟨next, hpush, hperform⟩ | ⟨e, hperform⟩
  · obtain ⟨_, row, _, hrows⟩ := pushRow_eq_ok hpush
    rw [hperform, hrows]
    exact List.prefix_append _ _
  · rw [hperform]

/-- A row that is accepted gives types to columns without one. -/
theorem columns_of_pushRow {cells : List Value} (h : t.pushRow cells = .ok next) (i : Nat) :
    next.columns[i]? = t.columns[i]?.map (·.retype (cells[i]?.bind Value.dataType?)) := by
  obtain ⟨_, _, hstores⟩ := store_of_pushRow h
  cases hcolumn : next.columns[i]? with
  | none =>
      have hlength := (pushRow_eq_ok h).1
      have hnone : t.columns[i]? = none := by
        rw [List.getElem?_eq_none_iff] at hcolumn ⊢
        omega
      rw [hnone]
      rfl
  | some c =>
      obtain ⟨old, cell, _, hold, hcell, _, hstore⟩ := hstores i c hcolumn
      rw [hold, hcell, Column.store_eq_ok hstore]
      rfl

end

/-! ## Runs -/

theorem Built.run {t : Table} (h : t.Built) (calls : List Call) : (t.run calls).Built := by
  induction calls generalizing t with
  | nil => exact h
  | cons call calls ih => exact ih (h.perform call)

theorem run_append (t : Table) (calls more : List Call) :
    t.run (calls ++ more) = (t.run calls).run more := by
  induction calls generalizing t with
  | nil => rfl
  | cons call calls ih => exact ih _

theorem rows_prefix_run (t : Table) (calls : List Call) : t.rows <+: (t.run calls).rows := by
  induction calls generalizing t with
  | nil => exact List.prefix_refl _
  | cons call calls ih => exact (rows_prefix_perform t call).trans (ih _)

theorem getElem?_columns_run (t : Table) (calls : List Call) (i : Nat) :
    (t.run calls).columns[i]? =
      t.columns[i]?.map (·.retype (firstType? i (t.accepted calls))) := by
  induction calls generalizing t with
  | nil => simp [run, accepted, firstType?]
  | cons call calls ih =>
      rw [run, accepted, ih]
      rcases perform_cases t call with ⟨next, hpush, hperform⟩ | ⟨e, hperform⟩
      · rw [hperform]
        dsimp only
        rw [columns_of_pushRow hpush, Option.map_map, firstType?_cons]
        congr 1
        funext c
        apply Column.retype_retype
        cases call.cells[i]? with
        | none => simp
        | some cell => exact cell.dataType?_ne_any
      · rw [hperform]

/-- The columns depend on the first literals that were accepted, and on nothing else. -/
theorem columns_run (t : Table) (calls : List Call) :
    (t.run calls).columns =
      t.columns.mapIdx fun i c => c.retype (firstType? i (t.accepted calls)) := by
  apply List.ext_getElem?
  intro i
  rw [getElem?_columns_run, List.getElem?_mapIdx]

theorem ofColumns_eq_ok {columns : List Column} {conversion : ConversionMode} {t : Table}
    (h : ofColumns columns conversion = .ok t) : t.columns = columns ∧ t.rows = [] := by
  unfold ofColumns at h
  split at h
  · cases h
    exact ⟨rfl, rfl⟩
  · cases h

/-- What holds of a table after any calls: its shape, its types, and its declaration. -/
theorem run_ofColumns {columns : List Column} {conversion : ConversionMode} {start : Table}
    (h : ofColumns columns conversion = .ok start) (calls : List Call) :
    (start.run calls).columns.length = columns.length ∧
      (∀ row ∈ (start.run calls).rows, row.cells.length = columns.length) ∧
      (∀ (i : Nat) (c : Column), (start.run calls).columns[i]? = some c →
        ∀ row ∈ (start.run calls).rows, ∀ l, row.cells[i]? = some (.literal l) →
          l.dataType = c.type ∧ c.type ≠ .any) ∧
      (∀ (i : Nat) (declared c : Column),
        columns[i]? = some declared → (start.run calls).columns[i]? = some c →
        c.name? = declared.name? ∧ c.isKey = declared.isKey ∧
          (declared.type ≠ .any → c.type = declared.type) ∧
          (declared.type = .any →
            c.type = (firstType? i (start.accepted calls)).getD .any)) ∧
      (∀ more, (start.run calls).rows <+: (start.run (calls ++ more)).rows) ∧
      ∀ call e, ((start.run calls).perform call).1 = .error e →
        ((start.run calls).perform call).2 = start.run calls := by
  have hbuilt : (start.run calls).Built := (Built.ofColumns h).run calls
  obtain ⟨hcolumns, _⟩ := ofColumns_eq_ok h
  have hretyped := columns_run start calls
  rw [hcolumns] at hretyped
  have hlength : (start.run calls).columns.length = columns.length := by
    rw [hretyped, List.length_mapIdx]
  refine ⟨hlength, ?_, ?_, ?_, ?_, ?_⟩
  · intro row hrow
    exact (hbuilt.length_cells hrow).trans hlength
  · intro i c hc row hrow l hl
    have htype := hbuilt.holds hrow hc hl l rfl
    exact ⟨htype, htype ▸ l.dataType_ne_any⟩
  · intro i declared c hdeclared hc
    rw [hretyped, List.getElem?_mapIdx, hdeclared] at hc
    cases hc
    refine ⟨Column.name?_retype _, Column.isKey_retype _, ?_, ?_⟩
    · intro htype
      exact congrArg Column.type (Column.retype_of_ne_any htype _)
    · intro htype
      exact Column.type_retype_of_any htype _
  · intro more
    rw [run_append]
    exact rows_prefix_run _ more
  · intro call e herror
    exact perform_eq_error herror

def anyThenKey : Table where
  columns := [⟨some "note", .any, false⟩, ⟨some "id", .integer, true⟩]
  rows := []
  conversion := .strict

/-- The first call is rejected for its second cell, and the last for the type that the third gave to
the first column. -/
def twoRejected : List Call :=
  [.push [.literal (.boolean true), .literal (.string "late")],
    .withRow [.null, .literal (.integer 5)],
    .push [.literal (.string "text"), .literal (.integer 7)],
    .withRow [.literal (.integer 1), .literal (.integer 8)]]

theorem run_ofColumns_anyThenKey :
    (∀ row ∈ (anyThenKey.run twoRejected).rows, row.cells.length = 2) ∧
      (∀ c, (anyThenKey.run twoRejected).columns[0]? = some c →
        c.name? = some "note" ∧ c.isKey = false ∧ c.type = .string) ∧
      (anyThenKey.run (twoRejected.take 2)).rows <+: (anyThenKey.run twoRejected).rows := by
  have hstart : ofColumns anyThenKey.columns .strict = .ok anyThenKey := rfl
  obtain ⟨_, hwidth, _, hdeclared, _⟩ := run_ofColumns hstart twoRejected
  obtain ⟨_, _, _, _, hprefix, _⟩ := run_ofColumns hstart (twoRejected.take 2)
  refine ⟨hwidth, ?_, hprefix (twoRejected.drop 2)⟩
  intro c hc
  have hfirst : firstType? 0 (anyThenKey.accepted twoRejected) = some .string := by decide
  obtain ⟨hname, hkey, _, htype⟩ := hdeclared 0 _ c rfl hc
  refine ⟨hname, hkey, ?_⟩
  rw [htype rfl, hfirst]
  rfl

end Table

end TableDiff
