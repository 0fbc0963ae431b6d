import Std.Data.TreeMap
import Std.Data.TreeSet
import TableDiff.DiffLine
import TableDiff.Error

/-!
# Pairings

A pairing is a list of pairs of an expected and an actual index in which no index of either side
occurs twice.  The newest pair stands at the head, so a pairing that is extended in several ways
shares what its extensions have in common.  The number of pairs is kept beside them.
-/

namespace TableDiff

structure IndexPair where
  expected : Nat
  actual : Nat
deriving DecidableEq

def IndexPair.swap (p : IndexPair) : IndexPair := ⟨p.actual, p.expected⟩

structure Pairing where
  /-- The pairs, the newest first. -/
  newest : List IndexPair
  size : Nat
  size_eq : size = newest.length
deriving DecidableEq

namespace Pairing

def empty : Pairing := ⟨[], 0, rfl⟩

def push (l : Pairing) (p : IndexPair) : Pairing where
  newest := p :: l.newest
  size := l.size + 1
  size_eq := by rw [List.length_cons, l.size_eq]

/-- The pairs in the order in which they were added. -/
def toList (l : Pairing) : List IndexPair := l.newest.reverse

def isEmpty (l : Pairing) : Bool := l.size == 0

/-- The actual index paired with an expected one. -/
def actualFor? (l : Pairing) (expected : Nat) : Option Nat :=
  (l.newest.find? (·.expected == expected)).map (·.actual)

/-- The expected index paired with an actual one. -/
def expectedFor? (l : Pairing) (actual : Nat) : Option Nat :=
  (l.newest.find? (·.actual == actual)).map (·.expected)

/-- Adds one pair, unless one of its indices is paired already. -/
def add (l : Pairing) (p : IndexPair) : Except MatchError Pairing :=
  if (l.actualFor? p.expected).isSome then .error (.indexReused .expected p.expected)
  else if (l.expectedFor? p.actual).isSome then .error (.indexReused .actual p.actual)
  else .ok (l.push p)

/-- Adds pairs in turn, where the two sets hold the indices that are paired already. -/
def addFresh (expected actual : Std.TreeSet Nat) (l : Pairing) :
    List IndexPair → Except MatchError Pairing
  | [] => .ok l
  | p :: ps =>
    if expected.contains p.expected then .error (.indexReused .expected p.expected)
    else if actual.contains p.actual then .error (.indexReused .actual p.actual)
    else addFresh (expected.insert p.expected) (actual.insert p.actual) (l.push p) ps

/-- Adds many pairs; an index that is paired twice is looked up in a set. -/
def addAll (l : Pairing) (pairs : List IndexPair) : Except MatchError Pairing :=
  addFresh (Std.TreeSet.ofList (l.newest.map (·.expected)))
    (Std.TreeSet.ofList (l.newest.map (·.actual))) l pairs

def ofList (pairs : List IndexPair) : Except MatchError Pairing := empty.addAll pairs

/-- The pairs of the first list followed by those of the second. -/
def concat (l other : Pairing) : Except MatchError Pairing := l.addAll other.toList

/-- The same pairs in the same order with the two sides exchanged. -/
def swapped (l : Pairing) : Pairing where
  newest := l.newest.map IndexPair.swap
  size := l.size
  size_eq := by rw [List.length_map, l.size_eq]

/-- The lines of a diff: every given expected index with its partner, if it has one, then the given
actual indices that have none. -/
def aligned (l : Pairing) (expected actual : List Nat) : List DiffLine :=
  let partners := Std.TreeMap.ofList (l.newest.map fun p => (p.expected, p.actual))
  let used := Std.TreeSet.ofList (partners.toList.map (·.2))
  expected.map (fun e => ⟨some e, partners[e]?⟩) ++
    (actual.filter fun a => !used.contains a).map DiffLine.actualOnly

@[ext] theorem ext {l l' : Pairing} (h : l.newest = l'.newest) : l = l' := by
  have hsize : l.size = l'.size := by rw [l.size_eq, l'.size_eq, h]
  cases l
  cases l'
  cases h
  cases hsize
  rfl

@[simp] theorem newest_push (l : Pairing) (p : IndexPair) : (l.push p).newest = p :: l.newest := by
  rfl

@[simp] theorem newest_swapped (l : Pairing) :
    l.swapped.newest = l.newest.map IndexPair.swap := by
  rfl

@[simp] theorem toList_empty : empty.toList = [] := rfl

@[simp] theorem toList_push (l : Pairing) (p : IndexPair) :
    (l.push p).toList = l.toList ++ [p] := by
  rw [toList, newest_push, List.reverse_cons, toList]

@[simp] theorem length_toList (l : Pairing) : l.toList.length = l.size := by
  rw [toList, List.length_reverse, l.size_eq]

@[simp] theorem toList_swapped (l : Pairing) :
    l.swapped.toList = l.toList.map IndexPair.swap := by
  rw [toList, newest_swapped, toList, List.map_reverse]

def text (l : Pairing) : String :=
  "[" ++ ", ".intercalate (l.toList.map fun p =>
    "(" ++ toString p.expected ++ ", " ++ toString p.actual ++ ")") ++ "]"

end Pairing

end TableDiff
