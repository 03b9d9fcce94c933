import AwesomeAgent.Library.Datetime

/-!
# Points in time counted in microseconds

A point in time is also the microseconds since the start of 1970; the calendar of 400 years gives
its fields in UTC.
-/

namespace AwesomeAgent.Datetime

/-- The microseconds from the start of the year 1 to that of 1970. -/
def epochMicroseconds : Int := 62135596800000000

/-- The year of a day counted from the start of the year 1, and the days of the year before it. -/
def yearOf (days : Nat) : Nat × Nat :=
  let inEra := days % 146097
  let centuries := min (inEra / 36524) 3
  let inCentury := inEra - centuries * 36524
  let inCycle := inCentury % 1461
  let years := min (inCycle / 365) 3
  (days / 146097 * 400 + centuries * 100 + inCentury / 1461 * 4 + years + 1,
    inCycle - years * 365)

/-- The month and its day, with the months that are left and the days from the month on. -/
def monthAndDay (year : Nat) : Nat → Nat → Nat → Nat × Nat
  | 0, month, days => (month, days + 1)
  | left + 1, month, days =>
      if days < daysInMonth year month then (month, days + 1)
      else monthAndDay year left (month + 1) (days - daysInMonth year month)

/-- The fields of a point in time, if the calendar has it. -/
def ofMicroseconds (microseconds : Int) : Option Datetime :=
  let total := (microseconds + epochMicroseconds).toNat
  let seconds := total / 1000000
  let (year, days) := yearOf (seconds / 86400)
  let (month, day) := monthAndDay year 11 1 days
  let hour := seconds % 86400 / 3600
  let minute := seconds % 3600 / 60
  if h : ((1 ≤ year ∧ year ≤ 9999) ∧ (1 ≤ month ∧ month ≤ 12) ∧
        1 ≤ day ∧ day ≤ daysInMonth year month) ∧
      (hour < 24 ∧ minute < 60 ∧ seconds % 60 < 60 ∧ total % 1000000 < 1000000) ∧
      0 ≤ microseconds + epochMicroseconds then
    some ⟨year, month, day, hour, minute, seconds % 60, total % 1000000, h.1, h.2.1⟩
  else none

/-- The ISO text of a point in time. -/
def isoformatOf (microseconds : Int) : Text :=
  ((ofMicroseconds microseconds).map isoformat).getD []

example : isoformatOf 951827696789000 = "2000-02-29T12:34:56.789000+00:00".toList := by decide

end AwesomeAgent.Datetime
