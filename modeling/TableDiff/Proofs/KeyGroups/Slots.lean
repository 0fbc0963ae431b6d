import TableDiff.Rows
import TableDiff.Proofs.Literal.Equivalence

/-!
# The slots of the keys

Rows are grouped in two passes, the expected ones first.  Each row goes into the group in the slot
of its key, and a key that has no slot yet gets the next one.  So the slots follow the keys in the
order in which these first appear, and the group of a key holds just the rows with that key, in
their order.
-/

namespace TableDiff

/-! ## First appearances -/

section

variable {κ : Type} [BEq κ]

theorem mem_of_mem_eraseDups {key : κ} {keys : List κ} (h : key ∈ keys.eraseDups) : key ∈ keys := by
  induction hn : keys.length using Nat.strong_induction_on generalizing keys with
  | _ n ih =>
    cases keys with
    | nil => exact h
    | cons head keys =>
        rw [List.eraseDups_cons] at h
        rcases List.mem_cons.mp h with rfl | h
        · exact List.mem_cons_self
        · have hlength : (keys.filter fun k => !k == head).length < n := by
            have hle := List.length_filter_le (fun k => !k == head) keys
            rw [List.length_cons] at hn
            omega
          have hmem := ih _ hlength h rfl
          exact List.mem_cons_of_mem _ (List.mem_of_mem_filter hmem)

variable [EquivBEq κ]

/-- A last key is a first appearance if no earlier one equals it. -/
theorem eraseDups_concat (keys : List κ) (key : κ) :
    (keys ++ [key]).eraseDups =
      if keys.eraseDups.any (· == key) then keys.eraseDups else keys.eraseDups ++ [key] := by
  induction hn : keys.length using Nat.strong_induction_on generalizing keys with
  | _ n ih =>
    cases keys with
    | nil => rfl
    | cons head keys =>
        have hlength : (keys.filter fun k => !k == head).length < n := by
          have hle := List.length_filter_le (fun k => !k == head) keys
          rw [List.length_cons] at hn
          omega
        rw [List.cons_append, List.eraseDups_cons, List.eraseDups_cons, List.filter_append,
          List.any_cons]
        cases hhead : head == key with
        | true =>
            have hkey : (key == head) = true := BEq.symm hhead
            simp [hkey]
        | false =>
            have hkey : (key == head) = false := BEq.symm_false hhead
            have hlast : [key].filter (fun k => !k == head) = [key] := by simp [hkey]
            rw [hlast, ih _ hlength _ rfl, Bool.false_or]
            split
            · rfl
            · rfl

theorem any_eraseDups (keys : List κ) (key : κ) :
    keys.eraseDups.any (· == key) = keys.any (· == key) := by
  induction keys using List.reverseRecOn with
  | nil => rfl
  | append_singleton keys last ih =>
      have hconcat : (keys ++ [last]).any (· == key) = (keys.any (· == key) || last == key) := by
        simp
      rw [eraseDups_concat, hconcat]
      split
      · next hany =>
        obtain ⟨first, hfirst, hlast⟩ := List.any_eq_true.mp hany
        rw [ih]
        cases hkey : last == key with
        | true =>
            have hsame : (first == key) = true := BEq.trans hlast hkey
            have hearlier : keys.any (· == key) = true :=
              List.any_eq_true.mpr ⟨first, mem_of_mem_eraseDups hfirst, hsame⟩
            rw [hearlier, Bool.true_or]
        | false => rw [Bool.or_false]
      · rw [List.any_append, ih]
        simp

theorem exists_mem_eraseDups {key : κ} {keys : List κ} (h : key ∈ keys) :
    ∃ other ∈ keys.eraseDups, (key == other) = true := by
  have hany : keys.eraseDups.any (· == key) = true := by
    rw [any_eraseDups, List.any_eq_true]
    exact ⟨key, h, BEq.rfl⟩
  obtain ⟨other, hother, hbeq⟩ := List.any_eq_true.mp hany
  exact ⟨other, hother, BEq.symm hbeq⟩

end

namespace RowMatch

/-! ## Keys -/

theorem key_beq_iff (a b : Key) :
    (a == b) = true ↔
      a.map (Option.map Literal.orderKey) = b.map (Option.map Literal.orderKey) := by
  induction a generalizing b with
  | nil =>
      cases b with
      | nil => simp
      | cons v b => simp
  | cons u a ih =>
      cases b with
      | nil => simp
      | cons v b =>
          have hhead : (u == v) = true ↔
              u.map Literal.orderKey = v.map Literal.orderKey := by
            cases u <;> cases v <;> simp [Literal.beq_iff_orderKey_eq]
          simp [hhead, ih]

instance : EquivBEq Key :=
  equivBEq_of_iff_apply_eq (List.map (Option.map Literal.orderKey)) key_beq_iff

/-- The rows with one key, in their order. -/
def rowsWith (key : Key) (keyed : List (Key × Entry)) : List Entry :=
  (keyed.filter (·.1 == key)).map (·.2)

theorem mem_rowsWith_iff {key : Key} {keyed : List (Key × Entry)} {e : Entry} :
    e ∈ rowsWith key keyed ↔ ∃ own, (own, e) ∈ keyed ∧ (own == key) = true := by
  simp [rowsWith]

theorem rowsWith_congr {key key' : Key} (h : (key == key') = true) (keyed : List (Key × Entry)) :
    rowsWith key keyed = rowsWith key' keyed := by
  rw [rowsWith, rowsWith]
  congr 1
  apply List.filter_congr
  intro row _
  exact BEq.congr_right h

theorem rowsWith_concat (key : Key) (keyed : List (Key × Entry)) (row : Key × Entry) :
    rowsWith key (keyed ++ [row]) =
      if row.1 == key then rowsWith key keyed ++ [row.2] else rowsWith key keyed := by
  unfold rowsWith
  rw [List.filter_append, List.map_append, List.filter_singleton]
  cases row.1 == key with
  | true => rfl
  | false => simp

theorem rowsWith_eq_nil {key : Key} {keyed : List (Key × Entry)}
    (h : (keyed.map (·.1)).any (· == key) = false) : rowsWith key keyed = [] := by
  rw [rowsWith, List.map_eq_nil_iff, List.filter_eq_nil_iff]
  intro row hrow
  exact List.any_eq_false.mp h row.1 (List.mem_map_of_mem hrow)

/-! ## The passes -/

namespace Grouping

/-- The slots number the keys, and each group stands in the slot of its key. -/
structure Numbers (g : Grouping) (keys : List Key) (group : Key → KeyGroup) : Prop where
  slot : ∀ key, g.slot? key = keys.findIdx? (· == key)
  groups : g.groups = keys.map group
  distinct : keys.Pairwise fun x y => (x == y) = false

variable {g : Grouping} {keys : List Key} {group group' : Key → KeyGroup} {key : Key}
  {push : KeyGroup → Entry → KeyGroup} {e : Entry}

theorem numbers_empty (group : Key → KeyGroup) : empty.Numbers [] group where
  slot := by
    intro key
    rfl
  groups := rfl
  distinct := List.Pairwise.nil

/-- Only the group in the slot of the key changes. -/
theorem modify_map_eq {slot : Nat} (hdistinct : keys.Pairwise fun x y => (x == y) = false)
    (hslot : keys.findIdx? (· == key) = some slot)
    (hgroup : ∀ k, group' k = if key == k then push (group k) e else group k) :
    (keys.map group).modify slot (fun group => push group e) = keys.map group' := by
  obtain ⟨hlt, hkey, _⟩ := List.findIdx?_eq_some_iff_getElem.mp hslot
  apply List.ext_getElem?
  intro i
  rw [List.getElem?_modify, List.getElem?_map, List.getElem?_map]
  cases hi : keys[i]? with
  | none => rfl
  | some k =>
      obtain ⟨hilt, rfl⟩ := List.getElem?_eq_some_iff.mp hi
      have hsame : (key == keys[i]) = decide (slot = i) := by
        rw [Bool.eq_iff_iff, decide_eq_true_eq]
        constructor
        · intro hbeq
          by_contra hne
          have hboth : (keys[slot] == keys[i]) = true := BEq.trans hkey hbeq
          rcases Nat.lt_or_gt_of_ne hne with hlater | hearlier
          · rw [List.pairwise_iff_getElem.mp hdistinct slot i hlt hilt hlater] at hboth
            cases hboth
          · have hboth := BEq.symm hboth
            rw [List.pairwise_iff_getElem.mp hdistinct i slot hilt hlt hearlier] at hboth
            cases hboth
        · rintro rfl
          exact BEq.symm hkey
      rw [Option.map_some, Option.map_some, hgroup, hsame]
      simp

/-- A key that equals none before it gets the next slot. -/
theorem Numbers.slotFor_new (h : g.Numbers keys group) (hany : keys.any (· == key) = false)
    (hnew : group key = ⟨[], []⟩) :
    (g.slotFor key).2.Numbers (keys ++ [key]) group ∧ (g.slotFor key).1 = keys.length := by
  have hother : ∀ k ∈ keys, (k == key) = false := by
    intro k hk
    exact Bool.eq_false_iff.mpr (List.any_eq_false.mp hany k hk)
  have hnone : g.slot? key = none := by
    rw [h.slot, List.findIdx?_eq_none_iff]
    exact hother
  have hslots : ∀ k, ((key, keys.length) :: g.slots).find? (·.1 == k) =
      if key == k then some (key, keys.length) else g.slots.find? (·.1 == k) := by
    intro k
    rw [List.find?_cons]
    cases key == k with
    | true => rfl
    | false => rfl
  unfold slotFor
  rw [hnone, h.groups, List.length_map]
  refine ⟨⟨?_, ?_, ?_⟩, rfl⟩
  · intro k
    have hold := h.slot k
    unfold slot? at hold ⊢
    rw [hslots, List.findIdx?_append, List.findIdx?_singleton, ← hold]
    cases hk : key == k with
    | true =>
        have hfree : g.slots.find? (·.1 == k) = none := by
          rw [← Option.map_eq_none_iff, hold, List.findIdx?_eq_none_iff]
          intro other hmem
          rw [← BEq.congr_right hk]
          exact hother other hmem
        simp [hfree]
    | false => simp
  · rw [List.map_append, List.map_singleton, hnew]
  · rw [List.pairwise_append]
    refine ⟨h.distinct, List.pairwise_singleton _ _, ?_⟩
    intro k hk last hlast
    rw [List.mem_singleton.mp hlast]
    exact hother k hk

/-- Asking for the slot of a key makes sure that it has one. -/
theorem Numbers.slotFor (h : g.Numbers keys group)
    (hnew : keys.any (· == key) = false → group key = ⟨[], []⟩) :
    (g.slotFor key).2.Numbers (if keys.any (· == key) then keys else keys ++ [key]) group ∧
      (if keys.any (· == key) then keys else keys ++ [key]).findIdx? (· == key) =
        some (g.slotFor key).1 := by
  cases hany : keys.any (· == key) with
  | true =>
      have hsome : (keys.findIdx? (· == key)).isSome = true := by
        rw [List.findIdx?_isSome]
        exact hany
      obtain ⟨slot, hslot⟩ := Option.isSome_iff_exists.mp hsome
      have hfound : g.slotFor key = (slot, g) := by
        rw [Grouping.slotFor, h.slot, hslot]
      rw [if_pos rfl, hfound]
      exact ⟨h, hslot⟩
  | false =>
      obtain ⟨hnumbers, hslot⟩ := h.slotFor_new hany (hnew hany)
      have hlast : (keys ++ [key]).findIdx? (· == key) = some keys.length := by
        have hnone : keys.findIdx? (· == key) = none := by
          rw [List.findIdx?_eq_none_iff]
          intro k hk
          exact Bool.eq_false_iff.mpr (List.any_eq_false.mp hany k hk)
        simp [List.findIdx?_append, hnone]
      rw [if_neg Bool.false_ne_true, hslot]
      exact ⟨hnumbers, hlast⟩

/-- A row only changes the group of its key. -/
theorem Numbers.add (h : g.Numbers keys group)
    (hgroup : ∀ k, group' k = if key == k then push (group k) e else group k)
    (hnew : keys.any (· == key) = false → group key = ⟨[], []⟩) :
    (g.add push (key, e)).Numbers (if keys.any (· == key) then keys else keys ++ [key]) group' := by
  obtain ⟨hnumbers, hslot⟩ := h.slotFor hnew
  constructor
  · exact hnumbers.slot
  · unfold Grouping.add
    dsimp only
    rw [hnumbers.groups]
    exact modify_map_eq hnumbers.distinct hslot hgroup
  · exact hnumbers.distinct

/-- One pass: its rows come after the keys of the rows before it. -/
theorem Numbers.foldl_add (before : List Key) (group : List (Key × Entry) → Key → KeyGroup)
    (hgroup : ∀ done row key, group (done ++ [row]) key =
      if row.1 == key then push (group done key) row.2 else group done key)
    (hnew : ∀ done key, (before ++ done.map (·.1)).eraseDups.any (· == key) = false →
      group done key = ⟨[], []⟩)
    (done rows : List (Key × Entry))
    (h : g.Numbers (before ++ done.map (·.1)).eraseDups (group done)) :
    (rows.foldl (Grouping.add push) g).Numbers (before ++ (done ++ rows).map (·.1)).eraseDups
      (group (done ++ rows)) := by
  induction rows generalizing done g with
  | nil =>
      rw [List.append_nil]
      exact h
  | cons row rows ih =>
      have hstep := h.add (hgroup done row) (hnew done row.1)
      rw [← eraseDups_concat, List.append_assoc, ← List.map_singleton, ← List.map_append] at hstep
      rw [List.foldl_cons, List.append_cons]
      exact ih _ hstep

end Grouping

/-- The two passes give each key the rows that have it. -/
theorem keyGroups_eq (expected actual : List (Key × Entry)) :
    keyGroups expected actual = ((expected ++ actual).map (·.1)).eraseDups.map fun key =>
      ⟨rowsWith key expected, rowsWith key actual⟩ := by
  have hexpected : (expected.foldl (Grouping.add KeyGroup.pushExpected) .empty).Numbers
      (expected.map (·.1)).eraseDups (fun key => ⟨rowsWith key expected, []⟩) := by
    refine Grouping.Numbers.foldl_add [] (fun done key => ⟨rowsWith key done, []⟩) ?_ ?_ []
      expected (Grouping.numbers_empty _)
    · intro done row key
      rw [rowsWith_concat]
      split
      · rfl
      · rfl
    · intro done key hany
      rw [List.nil_append, any_eraseDups] at hany
      rw [rowsWith_eq_nil hany]
  have hboth : (actual.foldl (Grouping.add KeyGroup.pushActual)
      (expected.foldl (Grouping.add KeyGroup.pushExpected) .empty)).Numbers
      (expected.map (·.1) ++ actual.map (·.1)).eraseDups
      (fun key => ⟨rowsWith key expected, rowsWith key actual⟩) := by
    refine Grouping.Numbers.foldl_add (expected.map (·.1))
      (fun done key => ⟨rowsWith key expected, rowsWith key done⟩) ?_ ?_ [] actual ?_
    · intro done row key
      rw [rowsWith_concat]
      split
      · rfl
      · rfl
    · intro done key hany
      rw [any_eraseDups, List.any_append, Bool.or_eq_false_iff] at hany
      rw [rowsWith_eq_nil hany.1, rowsWith_eq_nil hany.2]
    · rw [List.map_nil, List.append_nil]
      exact hexpected
  rw [keyGroups, hboth.groups, List.map_append]

end RowMatch

end TableDiff
