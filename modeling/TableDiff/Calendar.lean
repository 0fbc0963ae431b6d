/-!
# Calendar dates and times of day

Dates of the proleptic Gregorian calendar and clock times without a zone, with the order and the
text that they have in a table.  A leap second is the last second of a minute with a nanosecond
count of a whole second or more; its text shows second 60.
-/

namespace TableDiff

def isLeapYear (year : Int) : Bool :=
  year % 4 == 0 && (year % 100 != 0 || year % 400 == 0)

def daysInMonth (year : Int) (month : Nat) : Nat :=
  if month = 2 then (if isLeapYear year then 29 else 28)
  else if month = 4 ∨ month = 6 ∨ month = 9 ∨ month = 11 then 30
  else 31

/-- The decimal digits of `n`, with zeros in front up to `width` of them. -/
def padded (width n : Nat) : String :=
  let digits := Nat.toDigits 10 n
  String.ofList (List.replicate (width - digits.length) '0' ++ digits)

structure Date where
  year : Int
  month : Nat
  day : Nat
  month_mem : 1 ≤ month ∧ month ≤ 12
  day_mem : 1 ≤ day ∧ day ≤ daysInMonth year month
deriving DecidableEq

namespace Date

def ofParts? (year : Int) (month day : Nat) : Option Date :=
  if h : (1 ≤ month ∧ month ≤ 12) ∧ 1 ≤ day ∧ day ≤ daysInMonth year month then
    some ⟨year, month, day, h.1, h.2⟩
  else
    none

def compare (a b : Date) : Ordering :=
  (Ord.compare a.year b.year).then
    ((Ord.compare a.month b.month).then (Ord.compare a.day b.day))

instance : Ord Date := ⟨Date.compare⟩

/-- Years have four digits at least.  A year before 0 or above 9999 has a sign. -/
def yearText (year : Int) : String :=
  (if year < 0 then "-" else if 9999 < year then "+" else "") ++ padded 4 year.natAbs

def text (d : Date) : String :=
  yearText d.year ++ "-" ++ padded 2 d.month ++ "-" ++ padded 2 d.day

end Date

structure DateTime where
  date : Date
  hour : Nat
  minute : Nat
  second : Nat
  nanosecond : Nat
  hour_lt : hour < 24
  minute_lt : minute < 60
  second_lt : second < 60
  nanosecond_lt : nanosecond < 1_000_000_000 ∨ second = 59 ∧ nanosecond < 2_000_000_000
deriving DecidableEq

namespace DateTime

def ofParts? (date : Date) (hour minute second nanosecond : Nat) : Option DateTime :=
  if h : (hour < 24 ∧ minute < 60 ∧ second < 60) ∧
      (nanosecond < 1_000_000_000 ∨ second = 59 ∧ nanosecond < 2_000_000_000) then
    some ⟨date, hour, minute, second, nanosecond, h.1.1, h.1.2.1, h.1.2.2, h.2⟩
  else
    none

def secondOfDay (t : DateTime) : Nat := (t.hour * 60 + t.minute) * 60 + t.second

def compare (a b : DateTime) : Ordering :=
  (Ord.compare a.date b.date).then
    ((Ord.compare a.secondOfDay b.secondOfDay).then (Ord.compare a.nanosecond b.nanosecond))

instance : Ord DateTime := ⟨DateTime.compare⟩

/-- A fraction of a second in three, six or nine digits, the fewest that are exact. -/
def fractionText (nanosecond : Nat) : String :=
  if nanosecond = 0 then ""
  else if nanosecond % 1_000_000 = 0 then "." ++ padded 3 (nanosecond / 1_000_000)
  else if nanosecond % 1_000 = 0 then "." ++ padded 6 (nanosecond / 1_000)
  else "." ++ padded 9 nanosecond

def text (t : DateTime) : String :=
  t.date.text ++ "T" ++ padded 2 t.hour ++ ":" ++ padded 2 t.minute ++ ":" ++
    padded 2 (t.second + t.nanosecond / 1_000_000_000) ++
    fractionText (t.nanosecond % 1_000_000_000)

end DateTime

end TableDiff
