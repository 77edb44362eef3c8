/-!
# Days and times

Days of the Gregorian calendar, which is used for all years from 1 on, and times of
day.  A time may belong to a zone, which is given by how far it is ahead.
-/

namespace StructuralSchema

structure Date where
  year : Nat
  month : Nat
  day : Nat
  deriving DecidableEq, Repr

/-- A time on a day, in a zone that is `ahead` minutes ahead or in no zone. -/
structure DateTime where
  date : Date
  hour : Nat
  minute : Nat
  second : Nat
  microsecond : Nat
  ahead : Option Int
  deriving DecidableEq, Repr

def isLeapYear (year : Nat) : Bool :=
  year % 4 = 0 && (year % 100 ≠ 0 || year % 400 = 0)

def daysOfMonth (year month : Nat) : Nat :=
  if month = 2 then (if isLeapYear year then 29 else 28)
  else if [4, 6, 9, 11].contains month then 30
  else 31

def Date.isValid (d : Date) : Bool :=
  1 ≤ d.year && 1 ≤ d.month && d.month ≤ 12 && 1 ≤ d.day && d.day ≤ daysOfMonth d.year d.month

/-- The time is on a day in the calendar, and its zone less than a day ahead or behind. -/
def DateTime.isValid (t : DateTime) : Bool :=
  t.date.isValid && t.hour < 24 && t.minute < 60 && t.second < 60 && t.microsecond < 1000000 &&
    t.ahead.all fun minutes => minutes.natAbs < 1440

def Date.daysBefore (d : Date) : Nat :=
  let years := d.year - 1
  365 * years + years / 4 - years / 100 + years / 400 +
    ((List.range (d.month - 1)).map fun m => daysOfMonth d.year (m + 1)).foldl (· + ·) 0 +
      (d.day - 1)

/-- The count of microseconds before a time, on a clock that is not ahead. -/
def DateTime.instant (t : DateTime) : Int :=
  let minutes := ((t.date.daysBefore * 24 + t.hour) * 60 + t.minute : Nat) - t.ahead.getD 0
  (minutes * 60 + t.second) * 1000000 + t.microsecond

/-- The two times are the same: in zones they are if they fall on the same instant. -/
def DateTime.same (t u : DateTime) : Bool :=
  t.ahead.isSome == u.ahead.isSome && t.instant == u.instant

end StructuralSchema
