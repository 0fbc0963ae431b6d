/-!
# Sets of row indices

A set of small indices is a list of 64-bit words: index `i` is bit `i % 64` of word `i / 64`.  The
last word is never zero, so two sets with the same members are the same set.
-/

namespace TableDiff

namespace Words

/-- The words without the zero words at the end. -/
def trim : List UInt64 → List UInt64
  | [] => []
  | w :: ws =>
    match trim ws with
    | [] => if w = 0 then [] else [w]
    | v :: vs => w :: v :: vs

theorem getLast?_trim (ws : List UInt64) : (trim ws).getLast? ≠ some 0 := by
  induction ws with
  | nil => simp [trim]
  | cons w ws ih =>
    unfold trim
    split
    · split <;> simp_all
    · next v vs h => rw [h] at ih; simpa using ih

/-- Bit `i` of the words; beyond the last word every bit is clear. -/
def bit (ws : List UInt64) (i : Nat) : Bool :=
  ws[i / 64]?.any fun w => w.toBitVec.getLsbD (i % 64)

/-- The word with just the bit of an index. -/
def mask (i : Nat) : UInt64 := 1 <<< UInt64.ofNat (i % 64)

/-- Sets the bits of `mask` in word `n`, after as many zero words as are missing before it. -/
def setBits (mask : UInt64) : List UInt64 → Nat → List UInt64
  | [], 0 => [mask]
  | [], n + 1 => 0 :: setBits mask [] n
  | w :: ws, 0 => (w ||| mask) :: ws
  | w :: ws, n + 1 => w :: setBits mask ws n

/-- Clears in the first words the bits that are set in the second. -/
def clearBits : List UInt64 → List UInt64 → List UInt64
  | [], _ => []
  | ws, [] => ws
  | w :: ws, v :: vs => (w &&& ~~~v) :: clearBits ws vs

/-- The number of bits set in the lowest `n` bits of a word. -/
def countBits : (n : Nat) → UInt64 → Nat
  | 0, _ => 0
  | n + 1, w => if w = 0 then 0 else (w &&& 1).toNat + countBits n (w >>> 1)

theorem getElem?_trim (ws : List UInt64) (n : Nat) : (trim ws)[n]?.getD 0 = ws[n]?.getD 0 := by
  induction ws generalizing n with
  | nil => rfl
  | cons w ws ih =>
    unfold trim
    split
    · next h =>
      rw [h] at ih
      cases n with
      | zero => split <;> simp_all
      | succ n => split <;> simpa using ih n
    · next v vs h =>
      rw [h] at ih
      cases n with
      | zero => simp
      | succ n => simpa using ih n

theorem bit_eq_getD (ws : List UInt64) (i : Nat) :
    bit ws i = (ws[i / 64]?.getD 0).toBitVec.getLsbD (i % 64) := by
  unfold bit
  cases ws[i / 64]? <;> simp

@[simp] theorem bit_trim (ws : List UInt64) (i : Nat) : bit (trim ws) i = bit ws i := by
  rw [bit_eq_getD, bit_eq_getD, getElem?_trim]

theorem getElem?_setBits (mask : UInt64) (ws : List UInt64) (n k : Nat) :
    (setBits mask ws n)[k]?.getD 0 =
      if k = n then ws[k]?.getD 0 ||| mask else ws[k]?.getD 0 := by
  fun_induction setBits mask ws n generalizing k with
  | case1 => cases k <;> simp
  | case2 n ih =>
    cases k with
    | zero => simp
    | succ k => simpa using ih k
  | case3 w ws => cases k <;> simp
  | case4 w ws n ih =>
    cases k with
    | zero => simp
    | succ k => simpa using ih k

theorem getLsbD_mask (i k : Nat) :
    (mask i).toBitVec.getLsbD k = (decide (k < 64) && decide (k = i % 64)) := by
  have hi : i % 64 < 64 := Nat.mod_lt _ (by decide)
  have hlt : i % 64 < UInt64.size := Nat.lt_trans hi (by decide)
  have hshift : ((UInt64.ofNat (i % 64)).toBitVec % 64).toNat = i % 64 := by
    rw [BitVec.toNat_umod, UInt64.toNat_toBitVec, UInt64.toNat_ofNat_of_lt' hlt]
    exact Nat.mod_eq_of_lt hi
  rw [mask, UInt64.toBitVec_shiftLeft, BitVec.shiftLeft_eq', hshift, BitVec.getLsbD_shiftLeft,
    UInt64.toBitVec_one, BitVec.getLsbD_one]
  by_cases hk : k < 64
  · by_cases hbelow : k < i % 64
    · have hne : k ≠ i % 64 := by omega
      simp [hbelow, hne]
    · have heq : k - i % 64 = 0 ↔ k = i % 64 := by omega
      simp [hk, hbelow, heq]
  · simp [hk]

/-- The mask of an index adds just this index. -/
theorem bit_setBits_mask (ws : List UInt64) (i j : Nat) :
    bit (setBits (mask i) ws (i / 64)) j = (decide (j = i) || bit ws j) := by
  rw [bit_eq_getD, bit_eq_getD, getElem?_setBits]
  by_cases hw : j / 64 = i / 64
  · rw [if_pos hw, UInt64.toBitVec_or, BitVec.getLsbD_or, getLsbD_mask]
    have hj : j % 64 < 64 := Nat.mod_lt _ (by decide)
    have heq : (j % 64 = i % 64) ↔ j = i := by omega
    simp [hj, heq, Bool.or_comm]
  · have hne : j ≠ i := by
      rintro rfl
      exact hw rfl
    rw [if_neg hw]
    simp [hne]

theorem getElem?_clearBits (ws vs : List UInt64) (k : Nat) :
    (clearBits ws vs)[k]?.getD 0 = ws[k]?.getD 0 &&& ~~~(vs[k]?.getD 0) := by
  fun_induction clearBits ws vs generalizing k with
  | case1 => simp
  | case2 => simp
  | case3 w ws v vs ih =>
    cases k with
    | zero => simp
    | succ k => simpa using ih k

end Words

structure IndexSet where
  words : List UInt64
  trimmed : words.getLast? ≠ some 0
deriving DecidableEq

namespace IndexSet

def ofWords (ws : List UInt64) : IndexSet := ⟨Words.trim ws, Words.getLast?_trim ws⟩

def empty : IndexSet := ⟨[], by simp⟩

def contains (s : IndexSet) (i : Nat) : Bool := Words.bit s.words i

def insert (s : IndexSet) (i : Nat) : IndexSet :=
  if s.contains i then s
  else ofWords (Words.setBits (Words.mask i) s.words (i / 64))

def ofList (indices : List Nat) : IndexSet := indices.foldl insert empty

/-- The members of `s` that are not in `t`. -/
def without (s t : IndexSet) : IndexSet := ofWords (Words.clearBits s.words t.words)

def isEmpty (s : IndexSet) : Bool := s.words.isEmpty

def size (s : IndexSet) : Nat := s.words.foldl (fun n w => n + Words.countBits 64 w) 0

/-- A place on the way through the members: the index of a word, the bits of that word that have not
been passed yet, and the words behind it. -/
structure Cursor where
  wordIndex : Nat
  current : UInt64
  later : List UInt64

namespace Cursor

/-- The first member from a place on, and the place behind it.  The lowest bit that is left in the
word is the next one; words without a bit are skipped. -/
def nextFrom (wordIndex : Nat) (current : UInt64) (later : List UInt64) : Option (Nat × Cursor) :=
  if current = 0 then
    match later with
    | [] => none
    | w :: ws => nextFrom (wordIndex + 1) w ws
  else
    some (64 * wordIndex + current.toBitVec.ctz.toNat,
      ⟨wordIndex, current &&& (current - 1), later⟩)

def next? (c : Cursor) : Option (Nat × Cursor) := nextFrom c.wordIndex c.current c.later

/-- Clearing the lowest bit makes a word smaller. -/
theorem and_sub_one_lt {w : UInt64} (h : w ≠ 0) : (w &&& (w - 1)).toNat < w.toNat := by
  have hpos : 0 < w.toNat :=
    Nat.pos_of_ne_zero fun hzero => h (UInt64.toNat_inj.1 hzero)
  have hsub : (w - 1).toNat = w.toNat - 1 :=
    UInt64.toNat_sub_of_le _ _ (UInt64.le_iff_toNat_le.2 hpos)
  rw [UInt64.toNat_and, hsub]
  exact Nat.lt_of_le_of_lt Nat.and_le_right (by omega)

/-- Each member leaves fewer words ahead, or a smaller word. -/
theorem next?_lt {c rest : Cursor} {i : Nat} (h : c.next? = some (i, rest)) :
    rest.later.length < c.later.length ∨
      rest.later.length = c.later.length ∧ rest.current.toNat < c.current.toNat := by
  obtain ⟨wordIndex, current, later⟩ := c
  unfold next? at h
  dsimp only at h ⊢
  fun_induction nextFrom wordIndex current later with
  | case1 => cases h
  | case2 wordIndex w ws ih =>
    have hrest := ih h
    rw [List.length_cons]
    omega
  | case3 wordIndex current later hcurrent =>
    cases h
    exact .inr ⟨rfl, and_sub_one_lt hcurrent⟩

/-- The members from this place on. -/
def items (c : Cursor) : List Nat :=
  match _h : c.next? with
  | none => []
  | some (i, rest) => i :: rest.items
termination_by (c.later.length, c.current.toNat)
decreasing_by
  rw [Prod.lex_def]
  exact next?_lt _h

end Cursor

/-- The place before the first member. -/
def cursor (s : IndexSet) : Cursor := ⟨0, s.words.head?.getD 0, s.words.tail⟩

/-- The members, ascending. -/
def toList (s : IndexSet) : List Nat := s.cursor.items

/-- The members between braces. -/
def text (s : IndexSet) : String :=
  "\x7b" ++ ", ".intercalate (s.toList.map toString) ++ "\x7d"

theorem contains_ofWords (ws : List UInt64) (i : Nat) :
    (ofWords ws).contains i = Words.bit ws i := Words.bit_trim ws i

@[simp] theorem contains_empty (i : Nat) : empty.contains i = false := rfl

theorem contains_insert (s : IndexSet) (i j : Nat) :
    (s.insert i).contains j = (decide (j = i) || s.contains j) := by
  unfold insert
  split
  · next h => by_cases hj : j = i <;> simp_all
  · rw [contains_ofWords, Words.bit_setBits_mask]
    rfl

theorem contains_ofList (indices : List Nat) (i : Nat) :
    (ofList indices).contains i = decide (i ∈ indices) := by
  have step : ∀ (is : List Nat) (s : IndexSet),
      (is.foldl insert s).contains i = (decide (i ∈ is) || s.contains i) := by
    intro is
    induction is with
    | nil => intro s; simp
    | cons k is ih =>
      intro s
      rw [List.foldl_cons, ih, contains_insert]
      by_cases hk : i = k <;> by_cases his : i ∈ is <;> simp [hk, his]
  rw [ofList, step, contains_empty, Bool.or_false]

theorem contains_without (s t : IndexSet) (i : Nat) :
    (s.without t).contains i = (s.contains i && !t.contains i) := by
  rw [without, contains_ofWords, contains, contains, Words.bit_eq_getD, Words.bit_eq_getD,
    Words.bit_eq_getD, Words.getElem?_clearBits, UInt64.toBitVec_and, UInt64.toBitVec_not,
    BitVec.getLsbD_and, BitVec.getLsbD_not]
  have hi : i % 64 < 64 := Nat.mod_lt _ (by decide)
  rw [decide_eq_true hi, Bool.true_and]

end IndexSet

end TableDiff
