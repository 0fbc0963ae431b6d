import TableDiff.Proofs.Columns.Names
import TableDiff.Proofs.KeyColumns

/-!
# Columns put in the order of their names

If the columns of two tables match by name, those of the actual table can be put in the order in
which the names stand in the expected table, and the cells of its rows with them.  After that the
partner of each cell stands at the same position, so what was compared by name is compared by
position.
-/

namespace TableDiff

/-- The elements at the given places, in the order of the places. -/
def arrange {α : Type} (order : List Nat) (l : List α) : List α := order.filterMap (l[·]?)

section

variable {α β : Type} {order : List Nat} {l : List α}

theorem map_some_arrange (h : ∀ j ∈ order, j < l.length) :
    (arrange order l).map some = order.map (l[·]?) := by
  induction order with
  | nil => rfl
  | cons j order ih =>
      rw [List.forall_mem_cons] at h
      have hj := List.getElem?_eq_getElem h.1
      rw [arrange, List.filterMap_cons_some hj, List.map_cons, List.map_cons, hj, ← arrange, ih h.2]

theorem length_arrange (h : ∀ j ∈ order, j < l.length) :
    (arrange order l).length = order.length := by
  have hlength := congrArg List.length (map_some_arrange h)
  rwa [List.length_map, List.length_map] at hlength

theorem getElem?_arrange (h : ∀ j ∈ order, j < l.length) (i : Nat) :
    (arrange order l)[i]? = order[i]?.bind (l[·]?) := by
  have hget := congrArg (·[i]?) (map_some_arrange h)
  simp only [List.getElem?_map] at hget
  cases hi : order[i]? with
  | none => simpa [hi] using hget
  | some j =>
      rw [hi, Option.map_some] at hget
      obtain ⟨x, hx, hj⟩ := Option.map_eq_some_iff.mp hget
      rw [hx, hj, Option.bind_some, ← hj]

theorem map_arrange_eq {f : α → β} {ys : List β}
    (h : List.Forall₂ (fun y j => l[j]?.map f = some y) ys order) :
    (arrange order l).map f = ys := by
  induction h with
  | nil => rfl
  | cons hj _ ih =>
      obtain ⟨x, hx, hy⟩ := Option.map_eq_some_iff.mp hj
      rw [arrange, List.filterMap_cons_some hx, List.map_cons, hy, ← arrange, ih]

theorem mem_of_mem_arrange {x : α} (h : x ∈ arrange order l) : x ∈ l := by
  obtain ⟨j, _, hj⟩ := List.mem_filterMap.mp h
  exact List.mem_of_getElem? hj

end

def Row.arrange (order : List Nat) (row : Row) : Row := ⟨TableDiff.arrange order row.cells⟩

/-- The table with its columns, and the cells of its rows, in another order. -/
def Table.arrange (order : List Nat) (t : Table) : Table where
  columns := TableDiff.arrange order t.columns
  rows := t.rows.map (Row.arrange order)
  conversion := t.conversion

/-- All actual columns, in the order in which the expected table has their names. -/
structure NameOrder (nameCase : NameCase) (expected actual : List Column) (order : List Nat) :
    Prop where
  perm : order.Perm (List.range actual.length)
  names_eq : (arrange order actual).map (·.normalizedName nameCase) =
    expected.map (·.normalizedName nameCase)

section

variable {config : Config} {nameCase : NameCase} {expected actual : List Column}
  {order : List Nat} {s t : Table}

theorem exists_nameOrder (h : SameNames nameCase expected actual) :
    ∃ order, NameOrder nameCase expected actual order := by
  have hat : List.Forall₂ (fun name j => actual[j]?.map (·.normalizedName nameCase) = some name)
      (actual.map (·.normalizedName nameCase)) (List.range actual.length) := by
    rw [List.forall₂_map_left_iff]
    exact (forall₂_range actual).imp fun c j hj => by rw [hj, Option.map_some]
  obtain ⟨order, horder, hperm⟩ := List.perm_comp_forall₂ h.names_perm hat
  exact ⟨order, hperm, map_arrange_eq horder⟩

namespace NameOrder

theorem lt_length (h : NameOrder nameCase expected actual order) :
    ∀ j ∈ order, j < actual.length := by
  intro j hj
  exact List.mem_range.mp (h.perm.subset hj)

theorem length_eq (h : NameOrder nameCase expected actual order) :
    order.length = expected.length := by
  have hlength := congrArg List.length h.names_eq
  rwa [List.length_map, List.length_map, length_arrange h.lt_length] at hlength

/-- Each expected column stands at the position of the actual one of its name. -/
theorem forall₂_arrange (h : NameOrder nameCase expected actual order) :
    List.Forall₂ (fun c d => c ∈ expected ∧ d ∈ actual ∧
      c.normalizedName nameCase = d.normalizedName nameCase) expected (arrange order actual) := by
  have hnames := h.names_eq.symm
  rw [← List.forall₂_eq_eq_eq, List.forall₂_map_left_iff, List.forall₂_map_right_iff] at hnames
  rw [List.forall₂_iff_zip] at hnames ⊢
  refine ⟨hnames.1, ?_⟩
  intro c d hmem
  obtain ⟨hc, hd⟩ := List.of_mem_zip hmem
  exact ⟨hc, mem_of_mem_arrange hd, hnames.2 hmem⟩

theorem actualIndex? (h : NameOrder nameCase expected actual order)
    (hnames : SameNames nameCase expected actual) (conversion : ConversionMode)
    {i j : Nat} (hi : i < expected.length) (hj : order[i]? = some j) :
    (CellMatcher.byName nameCase conversion expected actual).actualIndex? i = some j := by
  have hbound := h.lt_length j (List.mem_of_getElem? hj)
  have hname := congrArg (·[i]?) h.names_eq
  simp only [List.getElem?_map, getElem?_arrange h.lt_length, hj, Option.bind_some,
    List.getElem?_eq_getElem hi, List.getElem?_eq_getElem hbound, Option.map_some,
    Option.some.injEq] at hname
  exact actualIndex?_byName_eq hnames hi hbound hname.symm

/-- Where names are looked up is where the order puts them. -/
theorem projection_eq (h : NameOrder nameCase expected actual order)
    (hnames : SameNames nameCase expected actual) (conversion : ConversionMode) :
    (CellMatcher.byName nameCase conversion expected actual).projection =
      .byName (order.map some) := by
  have hindex : ∀ {i j : Nat}, i < expected.length → order[i]? = some j →
      (CellMatcher.byName nameCase conversion expected actual).actualIndex? i = some j := by
    intro i j hi hj
    exact h.actualIndex? hnames conversion hi hj
  unfold CellMatcher.actualIndex? CellMatcher.byName at hindex
  apply congrArg Projection.byName
  apply List.ext_getElem?
  intro i
  by_cases hi : i < expected.length
  · have hi' : i < order.length := h.length_eq ▸ hi
    have hj := List.getElem?_eq_getElem hi'
    rw [List.getElem?_map (f := some), hj, Option.map_some]
    exact Option.join_eq_some_iff.mp (hindex hi hj)
  · rw [List.getElem?_eq_none (by simpa using hi),
      List.getElem?_eq_none (by simpa [h.length_eq] using hi)]

/-- Rows are compared by name as they are by position once the cells are arranged. -/
theorem rowsMatch_eq (h : NameOrder nameCase expected actual order)
    (hnames : SameNames nameCase expected actual) (conversion : ConversionMode) {e a : Row}
    (he : e.cells.length = expected.length) (ha : a.cells.length = actual.length) :
    (CellMatcher.byName nameCase conversion expected actual).rowsMatch e a =
      (CellMatcher.positional conversion).rowsMatch e (a.arrange order) := by
  have hbound : ∀ j ∈ order, j < a.cells.length := ha ▸ h.lt_length
  have hlength : e.cells.length = (a.arrange order).cells.length := by
    rw [Row.arrange, length_arrange hbound, h.length_eq, he]
  have hpairs : (e.cells.zip (order.map some)).filterMap (fun p =>
      p.2.map fun j => (p.1, a.cells[j]?)) = e.cells.zip ((a.arrange order).cells.map some) := by
    rw [Row.arrange, map_some_arrange hbound, List.zip_map_right, List.zip_map_right,
      List.filterMap_map, ← List.filterMap_eq_map]
    rfl
  rw [CellMatcher.rowsMatch, CellMatcher.rowsMatch, CellMatcher.cellsMatch, CellMatcher.cellsMatch,
    h.projection_eq hnames]
  dsimp only [CellMatcher.positional]
  rw [if_pos hlength, ← hpairs]
  rfl

/-! ## The arranged columns -/

theorem compatible (h : NameOrder config.nameCase expected actual order)
    (htypes : CompatibleByName config expected actual) :
    List.Forall₂ (fun c d => c.type.compatible d.type config.conversion = true)
      expected (arrange order actual) := by
  apply h.forall₂_arrange.imp
  rintro c d ⟨hc, hd, hname⟩
  exact htypes c hc d hd hname

theorem map_isKey_eq (h : NameOrder nameCase expected actual order)
    (hkeys : SameKeys nameCase expected actual) :
    expected.map (·.isKey) = (arrange order actual).map (·.isKey) := by
  rw [← List.forall₂_eq_eq_eq, List.forall₂_map_left_iff, List.forall₂_map_right_iff]
  exact h.forall₂_arrange.imp fun c d hcd => hkeys c hcd.1 d hcd.2.1 hcd.2.2

end NameOrder

end

end TableDiff
