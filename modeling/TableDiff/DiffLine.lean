/-!
# Lines of a diff

A line shows an expected index, an actual index, or both side by side.
-/

namespace TableDiff

structure DiffLine where
  expected? : Option Nat
  actual? : Option Nat
deriving DecidableEq

namespace DiffLine

def both (expected actual : Nat) : DiffLine := ⟨some expected, some actual⟩

def expectedOnly (index : Nat) : DiffLine := ⟨some index, none⟩

def actualOnly (index : Nat) : DiffLine := ⟨none, some index⟩

def isComplete (line : DiffLine) : Bool := line.expected?.isSome && line.actual?.isSome

/-- Pairs the first with the first, the second with the second and so on; what is left over on the
longer side stands alone. -/
def zip : List Nat → List Nat → List DiffLine
  | [], actual => actual.map actualOnly
  | expected, [] => expected.map expectedOnly
  | e :: expected, a :: actual => both e a :: zip expected actual

/-- Lines for the first `m` expected and the first `n` actual indices. -/
def positional (m n : Nat) : List DiffLine := zip (List.range m) (List.range n)

end DiffLine

end TableDiff
