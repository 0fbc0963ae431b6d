import TableDiff.Value

/-!
# Conditions

A condition is a test that can be written down.  A null cell passes only constants, `isNull` and
what is built from them.
-/

namespace TableDiff

/-- The four order relations between a tested value and a bound. -/
inductive OrderRelation where
  | less
  | lessOrEqual
  | greater
  | greaterOrEqual
deriving DecidableEq

def OrderRelation.accepts : OrderRelation → Ordering → Bool
  | less, o => o == .lt
  | lessOrEqual, o => o != .gt
  | greater, o => o == .gt
  | greaterOrEqual, o => o != .lt

inductive Condition where
  | constant (result : Bool)
  | isNull
  | negation (c : Condition)
  | all (cs : List Condition)
  | any (cs : List Condition)
  | equal (l : Literal)
  | oneOf (ls : List Literal)
  | equivalent (l : Literal) (mode : ConversionMode)
  | related (relation : OrderRelation) (bound : Literal)
  | even
  | ofType (type : DataType)
  | containing (part : String)

/-- Whether `part` occurs in a text; an empty part always does. -/
def occursIn (part : List Char) : List Char → Bool
  | [] => part.isEmpty
  | c :: rest => part.isPrefixOf (c :: rest) || occursIn part rest

namespace Literal

def isEven : Literal → Bool
  | integer n => n.toInt % 2 == 0
  | long n => n.toInt % 2 == 0
  | _ => false

def containsText (part : String) : Literal → Bool
  | string s => occursIn part.toList s.toList
  | _ => false

end Literal

namespace Condition

mutual

def holds : Condition → Option Literal → Bool
  | constant result, _ => result
  | isNull, value => value.isNone
  | negation c, value => !c.holds value
  | all cs, value => allHold cs value
  | any cs, value => anyHolds cs value
  | equal l, value => value.any (· == l)
  | oneOf ls, value => value.any fun v => ls.any (v == ·)
  | equivalent l mode, value => value.any (l.equivalent · mode)
  | related relation bound, value =>
    value.any fun v => v.dataType == bound.dataType && relation.accepts (v.compare bound)
  | even, value => value.any Literal.isEven
  | ofType type, value => value.any (·.dataType == type)
  | containing part, value => value.any (Literal.containsText part)

def allHold : List Condition → Option Literal → Bool
  | [], _ => true
  | c :: cs, value => c.holds value && allHold cs value

def anyHolds : List Condition → Option Literal → Bool
  | [], _ => false
  | c :: cs, value => c.holds value || anyHolds cs value

end

end Condition

/-- The predicate that tests a condition. -/
def Predicate.ofCondition (description : String) (condition : Condition) : Predicate :=
  ⟨description, condition.holds⟩

end TableDiff
