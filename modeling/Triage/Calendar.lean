/-! Days of the Gregorian calendar, counted from the first of January 1970 in both directions, and clocks. -/

namespace Triage

abbrev Instant := Int

/-- How many ticks of a clock make a second, and how many seconds local time is ahead at some second. -/
structure Clock where
  second : Nat := 1000
  ahead : Int → Int := fun _ => 0

def Clock.localTime (c : Clock) (seconds : Int) : Int := seconds + c.ahead seconds

def Clock.seconds (c : Clock) (now : Instant) : Int := now.fdiv c.second

end Triage

namespace Triage.Calendar

structure Date where
  year : Int
  /-- From 1 to 12. -/
  month : Nat
  /-- From 1 to 31. -/
  day : Nat
  deriving DecidableEq, Repr

def secondsPerDay : Int := 86400

def dayOf (seconds : Int) : Int := seconds.fdiv secondsPerDay

def timeOfDay (seconds : Int) : Nat := (seconds.fmod secondsPerDay).toNat

/-- The date of a day. Years begin in March here, so that a leap day ends its year, and four hundred of them make an
era of 146097 days. -/
def ofDay (day : Int) : Date :=
  let shifted := day + 719468
  let era := shifted.fdiv 146097
  let dayOfEra := (shifted.fmod 146097).toNat
  let yearOfEra := (dayOfEra - dayOfEra / 1460 + dayOfEra / 36524 - dayOfEra / 146096) / 365
  let dayOfYear := dayOfEra - (365 * yearOfEra + yearOfEra / 4 - yearOfEra / 100)
  let monthFromMarch := (5 * dayOfYear + 2) / 153
  let month := if monthFromMarch < 10 then monthFromMarch + 3 else monthFromMarch - 9
  { year := yearOfEra + era * 400 + (if month ≤ 2 then 1 else 0)
    month
    day := dayOfYear - (153 * monthFromMarch + 2) / 5 + 1 }

def monthNames : List String :=
  ["Jan", "Feb", "Mar", "Apr", "May", "Jun", "Jul", "Aug", "Sep", "Oct", "Nov", "Dec"]

def twoDigits (n : Nat) : String := (if n < 10 then "0" else "") ++ toString n

def monthDay (seconds : Int) : String :=
  let date := ofDay (dayOf seconds)
  monthNames.getD (date.month - 1) "" ++ " " ++ twoDigits date.day

def clockTime (seconds : Int) : String :=
  let t := timeOfDay seconds
  twoDigits (t / 3600) ++ ":" ++ twoDigits (t / 60 % 60)

end Triage.Calendar
