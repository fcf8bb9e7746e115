import Intake.Fault

set_option autoImplicit false

/-!
Days of the years 1 to 9999 in the Gregorian calendar, and the milliseconds from 1970-01-01 to
their midnights.
-/

namespace Intake

def isLeap (year : Nat) : Bool :=
  year % 4 = 0 && (year % 100 ≠ 0 || year % 400 = 0)

def daysInMonth (year month : Nat) : Nat :=
  if month = 2 then (if isLeap year then 29 else 28)
  else if month = 4 ∨ month = 6 ∨ month = 9 ∨ month = 11 then 30
  else 31

structure CalendarDate where
  year : Nat
  month : Nat
  day : Nat
  year_range : 1 ≤ year ∧ year ≤ 9999
  month_range : 1 ≤ month ∧ month ≤ 12
  day_range : 1 ≤ day ∧ day ≤ daysInMonth year month
  deriving DecidableEq

namespace CalendarDate

def ofParts (year month day : Nat) (small : year ≤ 9999) : Except DateFault CalendarDate :=
  if hy : year = 0 then .error .year
  else if hm : 1 ≤ month ∧ month ≤ 12 then
    if hd : 1 ≤ day ∧ day ≤ daysInMonth year month then
      .ok ⟨year, month, day, ⟨Nat.pos_of_ne_zero hy, small⟩, hm, hd⟩
    else .error .day
  else .error .month

/-- Days before a year, counted from the first day of year 1. -/
def daysBeforeYear (year : Nat) : Nat :=
  365 * (year - 1) + (year - 1) / 4 - (year - 1) / 100 + (year - 1) / 400

def daysBeforeMonth (year : Nat) : Nat → Nat
  | 0 => 0
  | month + 1 => daysBeforeMonth year month + (if month = 0 then 0 else daysInMonth year month)

/-- The days since the first day of year 1. -/
def dayNumber (d : CalendarDate) : Nat :=
  daysBeforeYear d.year + daysBeforeMonth d.year d.month + (d.day - 1)

/-- The number of 1970-01-01. -/
def epochDay : Nat := 719162

/-- The number of days from the first day of year 1 to the last day of year 9999. -/
def dayCount : Nat := 3652059

def millisPerDay : Int := 86400000

def epochMillis (d : CalendarDate) : Int :=
  ((d.dayNumber : Int) - epochDay) * millisPerDay

/-- Counts years up while the next one has begun by day `n`. -/
def yearFrom : Nat → Nat → Nat → Nat
  | 0, year, _ => year
  | fuel + 1, year, n => if daysBeforeYear (year + 1) ≤ n then yearFrom fuel (year + 1) n else year

/-- No year has more than 366 days, and by the year 9999 that guess lags by less than 40 years. -/
def yearOf (n : Nat) : Nat := yearFrom 40 (n / 366 + 1) n

def monthFrom (year n : Nat) : Nat → Nat → Nat
  | 0, month => month
  | fuel + 1, month =>
    if daysBeforeMonth year (month + 1) ≤ n then monthFrom year n fuel (month + 1) else month

/-- The month of the day that has `n` days of its year before it. -/
def monthOf (year n : Nat) : Nat := monthFrom year n 11 1

def ofDayNumber? (n : Nat) : Option CalendarDate :=
  let year := yearOf n
  let inYear := n - daysBeforeYear year
  let month := monthOf year inYear
  let day := inYear - daysBeforeMonth year month + 1
  if h : (1 ≤ year ∧ year ≤ 9999) ∧ (1 ≤ month ∧ month ≤ 12) ∧
      (1 ≤ day ∧ day ≤ daysInMonth year month) then
    some ⟨year, month, day, h.1, h.2.1, h.2.2⟩
  else
    none

/-- A moment of no date is named in the fault, as long as it can be written. -/
def outOfRange (millis : Int) : Fault :=
  if Numeral.isWritable millis then .millisOutOfRange millis else .numeralTooLong

/-- The day on which a moment falls. -/
def ofEpochMillis (millis : Int) : Except Fault CalendarDate :=
  let n := Int.fdiv millis millisPerDay + epochDay
  if 0 ≤ n ∧ n < dayCount then
    match ofDayNumber? n.toNat with
    | some d => .ok d
    | none => .error (outOfRange millis)
  else
    .error (outOfRange millis)

def fourDigits (n : Nat) : Text :=
  [Nat.digitChar (n / 1000 % 10), Nat.digitChar (n / 100 % 10), Nat.digitChar (n / 10 % 10),
    Nat.digitChar (n % 10)]

def twoDigits (n : Nat) : Text :=
  [Nat.digitChar (n / 10 % 10), Nat.digitChar (n % 10)]

def isoText (d : CalendarDate) : Text :=
  fourDigits d.year ++ "-" ++ twoDigits d.month ++ "-" ++ twoDigits d.day

/-- Exactly four, two and two ASCII digits with hyphens between them. -/
def parse (text : Text) : Except Fault CalendarDate :=
  match text with
  | [y1, y2, y3, y4, '-', m1, m2, '-', d1, d2] =>
    if [y1, y2, y3, y4, m1, m2, d1, d2].all CodePoint.isDigit then
      let year := Numeral.value [y1, y2, y3, y4]
      if h : year ≤ 9999 then
        (ofParts year (Numeral.value [m1, m2]) (Numeral.value [d1, d2]) h).mapError
          (.noSuchDate text)
      else
        .error (.malformedDate text)
    else
      .error (.malformedDate text)
  | _ => .error (.malformedDate text)

def parseMillis (text : Text) : Except Fault Int := (parse text).map epochMillis

end CalendarDate
end Intake
