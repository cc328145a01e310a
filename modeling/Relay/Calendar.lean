namespace Relay

/-! The Gregorian calendar. -/

structure Date where
  year : Nat
  month : Nat
  day : Nat
  deriving DecidableEq, Repr

namespace Calendar

def isLeapYear (year : Nat) : Bool :=
  year % 4 = 0 && (year % 100 ≠ 0 || year % 400 = 0)

def daysInMonth (year month : Nat) : Nat :=
  if month = 2 then if isLeapYear year then 29 else 28
  else if month = 4 ∨ month = 6 ∨ month = 9 ∨ month = 11 then 30
  else 31

def cycleDays : Nat := 146097

def epoch : Nat := 719468

/-- The day with a number, counted from the start of 1970. Years are taken to
start in March, so that the leap day comes last. -/
def ofDays (days : Nat) : Date :=
  let shifted := days + epoch
  let inCycle := shifted % cycleDays
  let yearOfCycle := (inCycle - inCycle / 1460 + inCycle / 36524 - inCycle / 146096) / 365
  let inYear := inCycle - (365 * yearOfCycle + yearOfCycle / 4 - yearOfCycle / 100)
  let month := (5 * inYear + 2) / 153
  { year := yearOfCycle + 400 * (shifted / cycleDays) + if month < 10 then 0 else 1
    month := if month < 10 then month + 3 else month - 9
    day := inYear - (153 * month + 2) / 5 + 1 }

example : ofDays 0 = ⟨1970, 1, 1⟩ ∧ ofDays 19723 = ⟨2024, 1, 1⟩ ∧
    ofDays 19782 = ⟨2024, 2, 29⟩ ∧ ofDays 11016 = ⟨2000, 2, 29⟩ := by decide

end Calendar

end Relay
