import Mathlib.Algebra.GroupWithZero.Nat
import Mathlib.Tactic.Common

/-!
# Lib.Time — clock and column times

A clock reads microseconds since the epoch, the resolution of PostgreSQL; a `TIMESTAMP(3)` column
rounds to milliseconds.  Dates are those of the proleptic Gregorian calendar.
-/

namespace RaibitServer.Lib

abbrev Micros := Nat

/-- A time as a `TIMESTAMP(3)` column stores it. -/
def timestamp3 (t : Micros) : Micros := (t + 500) / 1000 * 1000

/-! ### Dates -/

def isLeap (year : Nat) : Bool := year % 4 = 0 && (year % 100 ≠ 0 || year % 400 = 0)

def monthDays (year month : Nat) : Nat :=
  if month = 2 then if isLeap year then 29 else 28
  else if [4, 6, 9, 11].contains month then 30 else 31

/-- Days from the start of year 0. -/
def yearDays (year : Nat) : Nat := 365 * year + (year + 3) / 4 - (year + 99) / 100 + (year + 399) / 400

/-- Days from the start of year 0 to a date. -/
def civilDays (year month day : Nat) : Nat :=
  yearDays year + ((List.range (month - 1)).map fun m => monthDays year (m + 1)).sum + (day - 1)

def epochDays : Nat := civilDays 1970 1 1

/-- A date and time of day in UTC, as milliseconds since the epoch; `none` if there is no such time. -/
def utcMillis (year month day hour minute second milli : Nat) : Option Int :=
  if 1 ≤ month ∧ month ≤ 12 ∧ 1 ≤ day ∧ day ≤ monthDays year month ∧ hour < 24 ∧ minute < 60 ∧ second < 60 then
    some ((((civilDays year month day : Int) - epochDays) * 24 + hour) * 3600000 + minute * 60000 +
      second * 1000 + milli)
  else none

example : utcMillis 2024 2 29 12 30 15 500 = some 1709209815500 := by decide

end RaibitServer.Lib
