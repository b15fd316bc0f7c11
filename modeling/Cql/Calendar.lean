import Cql.Text.Number

/-!
# Days and times of day

A `date` is a count of days whose middle, `2 ^ 31`, is 1970-01-01.  `Date.civil` turns the count
into year, month and day of the Gregorian calendar, continued without end to both sides.  Years are
counted from March there, so that the leap day closes a year, a century and an era of 400 years; a
year then has 365 days and one more at the end of every fourth year except that of a century, and
five months from March on have 153 days.

* `Date.ofDays`, `Date.days`   the count with its middle at zero;
* `Date.civil`                 the calendar day;
* `leapYear`, `monthLength`, `dayNumber`   the calendar by its definition, to count days against;
* `CivilDate.next`, `CivilDate.Before`     the day after, and the order of days;
* `Time.ofClock`               nanoseconds since midnight.
-/

namespace Cql

/-! ## dates -/

/-- a count of days, `2 ^ 31` for 1970-01-01 -/
@[ext]
structure Date where
  raw : UInt32
deriving DecidableEq

structure CivilDate where
  year : Int
  month : Int
  day : Int
deriving DecidableEq

namespace Date

/-- the count of 1970-01-01 -/
def epoch : Int := 2147483648

/-- a count as a word, nothing if no word holds it -/
def raw? (count : Int) : Option UInt32 :=
  if 0 ≤ count ∧ count ≤ 4294967295 then some (UInt32.ofInt count) else none

/-- days as a signed word, nothing if no word holds them -/
def days? (count : Int) : Option Int32 :=
  if -2147483648 ≤ count ∧ count ≤ 2147483647 then some (Int32.ofInt count) else none

/-- the day so many days after 1970-01-01, the last day of all if there is no such day -/
def ofDays (days : Int32) : Date := ⟨(raw? (days.toInt + epoch)).getD 4294967295⟩

/-- days since 1970-01-01, as many as a word can hold if it cannot hold them -/
def days (d : Date) : Int32 := (days? (d.raw.toNat - epoch)).getD 2147483647

/-- the calendar day of a number of days since 1970-01-01 -/
def civilOfDays (days : Int) : CivilDate :=
  -- from here on counted from 0000-03-01
  let shifted := days + 719468
  let era := shifted / 146097
  let dayOfEra := shifted % 146097
  let yearOfEra := (dayOfEra - dayOfEra / 1460 + dayOfEra / 36524 - dayOfEra / 146096) / 365
  let dayOfYear := dayOfEra - (365 * yearOfEra + yearOfEra / 4 - yearOfEra / 100)
  let marchMonth := (5 * dayOfYear + 2) / 153
  let month := if marchMonth < 10 then marchMonth + 3 else marchMonth - 9
  { year := yearOfEra + era * 400 + (if month ≤ 2 then 1 else 0)
    month := month
    day := dayOfYear - (153 * marchMonth + 2) / 5 + 1 }

def civil (d : Date) : CivilDate := civilOfDays d.days.toInt

/-- year, month and day between hyphens, the year at least four characters wide, its sign counted -/
def text (d : Date) : List Char :=
  let c := d.civil
  Text.padded 4 c.year ++ '-' :: Text.padded 2 c.month ++ '-' :: Text.padded 2 c.day

end Date

/-! ## the calendar by its definition -/

/-- every fourth year, of the centuries only every fourth -/
def leapYear (year : Int) : Bool := year % 4 == 0 && (year % 100 != 0 || year % 400 == 0)

def monthLength (year month : Int) : Int :=
  if month = 2 then if leapYear year then 29 else 28
  else if month = 4 ∨ month = 6 ∨ month = 9 ∨ month = 11 then 30
  else 31

/-- a day that the calendar has -/
def CivilDate.Valid (c : CivilDate) : Prop :=
  1 ≤ c.month ∧ c.month ≤ 12 ∧ 1 ≤ c.day ∧ c.day ≤ monthLength c.year c.month

/-- days in the `n` years from `year` on -/
def daysOfYears (year : Int) : Nat → Int
  | 0 => 0
  | n + 1 => daysOfYears year n + if leapYear (year + n) then 366 else 365

def daysOfMonths (year : Int) : Nat → Int
  | 0 => 0
  | n + 1 => daysOfMonths year n + monthLength year (n + 1 : Nat)

/-- days from 1970-01-01, counted year by year and month by month -/
def CivilDate.dayNumber (c : CivilDate) : Int :=
  (if 1970 ≤ c.year then daysOfYears 1970 (c.year - 1970).toNat
    else -daysOfYears c.year (1970 - c.year).toNat)
    + daysOfMonths c.year (c.month - 1).toNat + (c.day - 1)

/-- the day after a day of the calendar -/
def CivilDate.next (c : CivilDate) : CivilDate :=
  if c.day < monthLength c.year c.month then ⟨c.year, c.month, c.day + 1⟩
  else if c.month < 12 then ⟨c.year, c.month + 1, 1⟩
  else ⟨c.year + 1, 1, 1⟩

/-- by the year, then by the month, then by the day -/
def CivilDate.Before (a b : CivilDate) : Prop :=
  a.year < b.year ∨ a.year = b.year ∧ (a.month < b.month ∨ a.month = b.month ∧ a.day < b.day)

/-! ## times -/

/-- nanoseconds since midnight -/
@[ext]
structure Time where
  nanos : Int64
deriving DecidableEq

/-- milliseconds since 1970-01-01 -/
@[ext]
structure Timestamp where
  millis : Int64
deriving DecidableEq

/-- a time of day from the hands of a clock; nothing is checked, 25 hours are a day and one -/
def Time.ofClock (hours minutes seconds : UInt8) (nanos : UInt32) : Time :=
  let total : Int := (hours.toNat * 3600 + minutes.toNat * 60 + seconds.toNat) * 1000000000 + nanos.toNat
  ⟨Int64.ofInt total⟩

end Cql
