/-! The proleptic Gregorian calendar and ISO weeks, over day numbers counted from the first of January 1970. -/

namespace Chronicle.Calendar

def isLeap (year : Int) : Bool := year % 4 == 0 && (year % 100 != 0 || year % 400 == 0)

def yearLength (year : Int) : Nat := if isLeap year then 366 else 365

def monthLengths (year : Int) : List Nat :=
  [31, if isLeap year then 29 else 28, 31, 30, 31, 30, 31, 31, 30, 31, 30, 31]

def daysBeforeYear (year : Int) : Int :=
  365 * (year - 1) + (year - 1) / 4 - (year - 1) / 100 + (year - 1) / 400

def firstDay : Int := -719162

/-- The year in which a day lies. Years of mean length give a first guess that is off by one year at most. -/
def yearOfDay (day : Int) : Int :=
  let guess := (day - firstDay) * 400 / 146097 + 1
  if day - firstDay < daysBeforeYear guess then guess - 1
  else if daysBeforeYear (guess + 1) ≤ day - firstDay then guess + 1
  else guess

def dayOfYear (day : Int) : Nat := (day - firstDay - daysBeforeYear (yearOfDay day)).toNat + 1

def splitMonths : List Nat → Nat → Nat × Nat
  | [], day => (0, day)
  | length :: rest, day =>
    if day < length then (0, day)
    else
      let (month, left) := splitMonths rest (day - length)
      (month + 1, left)

structure Date where
  year : Int
  month : Nat
  day : Nat
deriving DecidableEq, Repr

def dateOf (day : Int) : Date :=
  let year := yearOfDay day
  let (month, left) := splitMonths (monthLengths year) (dayOfYear day - 1)
  ⟨year, month + 1, left + 1⟩

def weekday (day : Int) : Nat := ((day + 3) % 7).toNat

/-- A week of the ISO calendar, which belongs to the year of its Thursday. -/
structure Week where
  year : Int
  number : Nat
deriving DecidableEq, Repr

def weekOf (day : Int) : Week :=
  let thursday := day - weekday day + 3
  ⟨yearOfDay thursday, (dayOfYear thursday - 1) / 7 + 1⟩

def dayMillis : Int := 86400000

end Chronicle.Calendar
