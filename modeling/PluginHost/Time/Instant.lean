/-!
# Instants

A day of the Gregorian calendar, a second of that day and a fraction of it, all
in UTC. During a leap second the fraction runs on past one second, so that
23:59:60 is second 86399 with a fraction of at least 10^9 nanoseconds.
-/

namespace PluginHost

/-- A day of the Gregorian calendar; the year before year 1 is year 0. -/
structure Date where
  year : Int
  month : Nat
  day : Nat
  deriving DecidableEq, Repr, Inhabited

/-- A point in time. -/
structure Instant where
  date : Date
  second : Nat
  nano : Nat
  deriving DecidableEq, Repr, Inhabited

namespace Date

/-- Every fourth year is a leap year, but of the hundredth years only every
fourth. -/
def isLeapYear (year : Int) : Bool :=
  year % 4 = 0 && (year % 100 ≠ 0 || year % 400 = 0)

def daysInMonth (year : Int) (month : Nat) : Nat :=
  if month = 2 then (if isLeapYear year then 29 else 28)
  else if month = 4 ∨ month = 6 ∨ month = 9 ∨ month = 11 then 30
  else 31

/-- The first and the last year of the calendar. -/
def firstYear : Int := -262143

def lastYear : Int := 262142

def isReal (d : Date) : Bool :=
  firstYear ≤ d.year && d.year ≤ lastYear && 1 ≤ d.month && d.month ≤ 12 &&
    1 ≤ d.day && d.day ≤ daysInMonth d.year d.month

/-- The day after, unless the calendar ends. -/
def next? (d : Date) : Option Date :=
  if d.day < daysInMonth d.year d.month then some { d with day := d.day + 1 }
  else if d.month < 12 then some ⟨d.year, d.month + 1, 1⟩
  else if d.year < lastYear then some ⟨d.year + 1, 1, 1⟩
  else none

/-- The day before, unless the calendar begins. -/
def previous? (d : Date) : Option Date :=
  if 1 < d.day then some { d with day := d.day - 1 }
  else if 1 < d.month then some ⟨d.year, d.month - 1, daysInMonth d.year (d.month - 1)⟩
  else if firstYear < d.year then some ⟨d.year - 1, 12, 31⟩
  else none

end Date

namespace Instant

def daySeconds : Nat := 86400

def nanosInSecond : Nat := 1000000000

/-- The instant at which clocks show `reading` that are `offset` seconds ahead of
UTC. The offset is less than a day. -/
def atOffset? (reading : Instant) (offset : Int) : Option Instant :=
  let s : Int := reading.second - offset
  if s < 0 then reading.date.previous?.map fun d => ⟨d, (s + daySeconds).toNat, reading.nano⟩
  else if s < daySeconds then some { reading with second := s.toNat }
  else reading.date.next?.map fun d => ⟨d, (s - daySeconds).toNat, reading.nano⟩

end Instant

end PluginHost
