/-!
# Instants

Moments of universal time, as dates of the Gregorian calendar extended both ways and times of day to
the nanosecond. A leap second is the second 59 with a thousand million nanoseconds or more.
-/

namespace PokerCoach.Time

def isLeapYear (year : Int) : Bool :=
  year % 4 = 0 && (year % 100 ≠ 0 || year % 400 = 0)

def daysInMonth (year : Int) (month : Nat) : Nat :=
  if month = 2 then (if isLeapYear year then 29 else 28)
  else if month = 4 ∨ month = 6 ∨ month = 9 ∨ month = 11 then 30
  else 31

def isDate (year : Int) (month day : Nat) : Bool :=
  1 ≤ month && month ≤ 12 && 1 ≤ day && day ≤ daysInMonth year month

def isTime (hour minute second nano : Nat) : Bool :=
  hour < 24 && minute < 60 && second < 60
    && (nano < 1000000000 || (second = 59 && nano < 2000000000))

structure Instant where
  year : Int
  month : Nat
  day : Nat
  hour : Nat
  minute : Nat
  second : Nat
  nano : Nat
  onCalendar : isDate year month day = true
  onClock : isTime hour minute second nano = true
  deriving DecidableEq

namespace Instant

def make? (year : Int) (month day hour minute second nano : Nat) : Option Instant :=
  if hd : isDate year month day = true then
    if ht : isTime hour minute second nano = true then
      some ⟨year, month, day, hour, minute, second, nano, hd, ht⟩
    else none
  else none

def epoch : Instant :=
  ⟨1970, 1, 1, 0, 0, 0, 0, by decide, by decide⟩

instance : Inhabited Instant := ⟨epoch⟩

def parts (t : Instant) : List Int :=
  [t.year, t.month, t.day, t.hour, t.minute, t.second, t.nano]

instance : LE Instant := ⟨fun s t => List.le s.parts t.parts⟩

instance (s t : Instant) : Decidable (s ≤ t) :=
  List.decidableLE s.parts t.parts

/-- The date `days` days after the start of 1970, counted from March so that a leap day comes last. -/
def civilOfDays (days : Int) : Int × Nat × Nat :=
  let shifted := days + 719468
  let era := shifted / 146097
  let dayOfEra := shifted % 146097
  let yearOfEra := (dayOfEra - dayOfEra / 1460 + dayOfEra / 36524 - dayOfEra / 146096) / 365
  let dayOfYear := dayOfEra - (365 * yearOfEra + yearOfEra / 4 - yearOfEra / 100)
  let monthFromMarch := (5 * dayOfYear + 2) / 153
  let day := dayOfYear - (153 * monthFromMarch + 2) / 5 + 1
  let month := if monthFromMarch < 10 then monthFromMarch + 3 else monthFromMarch - 9
  (yearOfEra + era * 400 + (if month ≤ 2 then 1 else 0), month.toNat, day.toNat)

/-- The instant `seconds` and `nanos` after the start of 1970. -/
def ofUnix (seconds : Int) (nanos : Nat) : Instant :=
  let (year, month, day) := civilOfDays (seconds / 86400)
  let rest := (seconds % 86400).toNat
  (make? year month day (rest / 3600) (rest / 60 % 60) (rest % 60) nanos).getD epoch

def dayBefore (year : Int) (month day : Nat) : Int × Nat × Nat :=
  if 1 < day then (year, month, day - 1)
  else if 1 < month then (year, month - 1, daysInMonth year (month - 1))
  else (year - 1, 12, 31)

def dayAfter (year : Int) (month day : Nat) : Int × Nat × Nat :=
  if day < daysInMonth year month then (year, month, day + 1)
  else if month < 12 then (year, month + 1, 1)
  else (year + 1, 1, 1)

/-- The instant shown by a clock that is ahead of universal time by `ahead` minutes, less than a
day. -/
def ofLocal? (year : Int) (month day hour minute second nano : Nat) (ahead : Int) :
    Option Instant :=
  if !isDate year month day then none
  else
    let minutes : Int := hour * 60 + minute - ahead
    let (year, month, day) :=
      if minutes < 0 then dayBefore year month day
      else if 1440 ≤ minutes then dayAfter year month day
      else (year, month, day)
    let minuteOfDay := (minutes % 1440).toNat
    make? year month day (minuteOfDay / 60) (minuteOfDay % 60) second nano

end Instant

end PokerCoach.Time
