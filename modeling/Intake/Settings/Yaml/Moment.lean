import Intake.CalendarDate
import Intake.Settings.Yaml.Fault

set_option autoImplicit false

/-!
Dates of a settings file, alone or with a time of the day, which may tell its distance from
universal time.
-/

namespace Intake.Yaml

structure SpeltClock where
  hour : Nat
  minute : Nat
  second : Nat
  /-- The digits behind the seconds. -/
  fraction : Text
  /-- Minutes ahead of universal time. -/
  zone : Option Int

/-- A date as it is spelt, which may be none of the calendar. -/
structure SpeltMoment where
  year : Nat
  month : Text
  day : Text
  clock : Option SpeltClock

/-- Up to two digits at the start of a text, at least one, and what follows them. -/
def shortDigits? : Text → Option (Text × Text)
  | a :: b :: rest =>
    if !a.isDigit then none else if b.isDigit then some ([a, b], rest) else some ([a], b :: rest)
  | [a] => if a.isDigit then some ([a], []) else none
  | [] => none

/-- A colon and two digits. -/
def clockPart? : Text → Option (Nat × Text)
  | ':' :: a :: b :: rest =>
    if a.isDigit && b.isDigit then some (Numeral.value [a, b], rest) else none
  | _ => none

def isSpaceOrTab (c : CodePoint) : Bool := c = ' ' || c = '\t'

def zone? (s : Text) : Option (Option Int) :=
  if s = [] then some none
  else match s.dropWhile isSpaceOrTab with
    | ['Z'] => some (some 0)
    | sign :: rest => do
      let (hours, more) ← if sign = '+' || sign = '-' then shortDigits? rest else none
      let minutes ← if more = [] then some 0
        else (clockPart? more).bind fun r => if r.2 = [] then some r.1 else none
      return some (Numeral.signed (sign = '-') (60 * Numeral.value hours + minutes))
    | [] => none

def clock? (s : Text) : Option SpeltClock := do
  let (hour, s) ← shortDigits? s
  let (minute, s) ← clockPart? s
  let (second, s) ← clockPart? s
  let (fraction, s) := match s with
    | '.' :: rest => (rest.takeWhile CodePoint.isDigit, rest.dropWhile CodePoint.isDigit)
    | _ => ([], s)
  return ⟨Numeral.value hour, minute, second, fraction, ← zone? s⟩

/-- What follows the letter or the blanks that divide a date from a time. -/
def behindDate? : Text → Option Text
  | 'T' :: rest => some rest
  | 't' :: rest => some rest
  | c :: rest => if isSpaceOrTab c then some (rest.dropWhile isSpaceOrTab) else none
  | [] => none

namespace SpeltMoment

def parse? : Text → Option SpeltMoment
  | a :: b :: c :: d :: '-' :: s => do
    let year ←
      if [a, b, c, d].all CodePoint.isDigit then some (Numeral.value [a, b, c, d]) else none
    let (month, s) ← shortDigits? s
    match s with
    | '-' :: s =>
      let (day, s) ← shortDigits? s
      if s = [] then return ⟨year, month, day, none⟩
      else return ⟨year, month, day, some (← clock? (← behindDate? s))⟩
    | _ => none
  | _ => none

/-- A plain date alone has two digits for the month and for the day. -/
def isPlain (s : Text) : Bool :=
  (parse? s).any fun m => m.clock.isSome || (m.month.length = 2 && m.day.length = 2)

end SpeltMoment

structure Clock where
  hour : Nat
  minute : Nat
  second : Nat
  microsecond : Nat
  zone : Option Int
  deriving DecidableEq

structure Moment where
  date : CalendarDate
  clock : Option Clock
  deriving DecidableEq

/-- More than six digits behind the seconds do not count. -/
def microseconds (fraction : Text) : Nat :=
  Numeral.value ((fraction ++ List.replicate 6 (CodePoint.char '0')).take 6)

/-- A day has 24 hours, and no place is a day away from universal time. -/
def SpeltClock.read (c : SpeltClock) : Except Fault Clock :=
  if c.hour < 24 ∧ c.minute < 60 ∧ c.second < 60 ∧ c.zone.all fun z => z.natAbs < 24 * 60 then
    .ok ⟨c.hour, c.minute, c.second, microseconds c.fraction, c.zone⟩
  else .error (.noSuchValue [])

namespace SpeltMoment

def date (m : SpeltMoment) : Except Fault CalendarDate :=
  if h : m.year ≤ 9999 then
    (CalendarDate.ofParts m.year (Numeral.value m.month) (Numeral.value m.day) h).mapError
      fun _ => .noSuchValue []
  else .error (.noSuchValue [])

def read (m : SpeltMoment) : Except Fault Moment := do
  let date ← m.date
  match m.clock with
  | none => return ⟨date, none⟩
  | some c => return ⟨date, some (← c.read)⟩

end SpeltMoment

def zoneShown (minutes : Int) : Text :=
  if minutes = 0 then "datetime.timezone.utc"
  else
    let days : Text := if minutes < 0 then "days=-1, " else []
    "datetime.timezone(datetime.timedelta(" ++ days ++ "seconds=" ++
      Numeral.ofInt (60 * (minutes % (24 * 60))) ++ "))"

/-- The numbers of a time, without seconds and their fraction where they and all behind them are
zero. -/
def Clock.numbers (c : Clock) : List Nat :=
  [c.hour, c.minute] ++ (if c.microsecond = 0 then (if c.second = 0 then [] else [c.second])
    else [c.second, c.microsecond])

def Moment.shown (m : Moment) : Text :=
  let numbers := [m.date.year, m.date.month, m.date.day] ++ m.clock.elim [] Clock.numbers
  let zone := (m.clock.bind Clock.zone).map fun z => "tzinfo=" ++ zoneShown z
  (if m.clock.isSome then "datetime.datetime(" else "datetime.date(") ++
    List.intercalate ", " (numbers.map Numeral.digits ++ zone.toList) ++ ")"

end Intake.Yaml
