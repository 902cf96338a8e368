import Chronicle.Calendar.Moment
import Chronicle.Identifier.Basic

/-! The instant of an identifier and the codes of the periods it falls in, all in UTC. -/

namespace Chronicle.Identifier

def dayNumber (x : Identifier) : Int := x.millis.toInt / Calendar.dayMillis

def date (x : Identifier) : Calendar.Date := Calendar.dateOf x.dayNumber

def createdAt (x : Identifier) : Calendar.Moment := (Calendar.Moment.ofMillis? x.millis.toInt).getD .epoch

def instant (x : Identifier) : String := x.createdAt.text

def dayCode (x : Identifier) : Int := x.date.year * 10000 + x.date.month * 100 + x.date.day

def monthCode (x : Identifier) : Int := x.date.year * 100 + x.date.month

def weekCode (x : Identifier) : Int :=
  let week := Calendar.weekOf x.dayNumber
  week.year * 100 + week.number

def ordinalCode (x : Identifier) : Int := x.date.year * 1000 + Calendar.dayOfYear x.dayNumber

def dayText (x : Identifier) : String := toString x.dayCode

end Chronicle.Identifier
