import Chronicle.Calendar.Date

namespace Chronicle.Calendar

structure Moment where
  date : Date
  hour : Nat
  minute : Nat
  second : Nat
  milli : Nat
deriving DecidableEq, Repr

def padded (width n : Nat) : String :=
  let ds := (toString n).toList
  String.ofList (List.replicate (width - ds.length) '0' ++ ds)

namespace Moment

def epoch : Moment := ⟨⟨1970, 1, 1⟩, 0, 0, 0, 0⟩

def ofMillis (millis : Int) : Moment :=
  let rest := (millis % dayMillis).toNat
  ⟨dateOf (millis / dayMillis), rest / 3600000, rest / 60000 % 60, rest / 1000 % 60, rest % 1000⟩

def firstYear : Int := -262143

def lastYear : Int := 262142

def ofMillis? (millis : Int) : Option Moment :=
  let moment := ofMillis millis
  if firstYear ≤ moment.date.year ∧ moment.date.year ≤ lastYear then some moment else none

def text (t : Moment) : String :=
  let day := s!"{padded 4 t.date.year.toNat}-{padded 2 t.date.month}-{padded 2 t.date.day}"
  s!"{day}T{padded 2 t.hour}:{padded 2 t.minute}:{padded 2 t.second}.{padded 3 t.milli}Z"

end Moment

end Chronicle.Calendar
