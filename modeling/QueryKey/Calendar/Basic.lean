import QueryKey.Text.Digits

/-! Dates of the proleptic Gregorian calendar, times of day with leap seconds, and local times
with an offset from universal time.
-/

namespace QueryKey.Calendar

/-- The years of the calendar. -/
def leastYear : Int := -262143

def greatestYear : Int := 262142

def isLeapYear (year : Int) : Bool :=
  year % 4 == 0 && (year % 100 != 0 || year % 400 == 0)

def daysInMonth (year : Int) (month : Nat) : Nat :=
  if month = 2 then (if isLeapYear year then 29 else 28)
  else if month = 4 ∨ month = 6 ∨ month = 9 ∨ month = 11 then 30
  else 31

/-- Whether there is such a day, in the years of the calendar or next to them. The day before the
first and the day behind the last are there for local times only, which their offsets take to them.
-/
abbrev IsDate (year : Int) (month day : Nat) : Prop :=
  leastYear - 1 ≤ year ∧ year ≤ greatestYear + 1
  ∧ 1 ≤ month ∧ month ≤ 12 ∧ 1 ≤ day ∧ day ≤ daysInMonth year month
  ∧ (leastYear ≤ year ∨ month = 12 ∧ day = 31) ∧ (year ≤ greatestYear ∨ month = 1 ∧ day = 1)

structure Date where
  year : Int
  month : Nat
  day : Nat
  isDate : IsDate year month day := by decide
deriving DecidableEq

def nanosecondsPerSecond : Nat := 1000000000

/-- Whether the day has such a time. In a leap second the nanoseconds go on beyond a second, and
any second may be followed by one.
-/
abbrev IsTime (hour minute second nanosecond : Nat) : Prop :=
  hour < 24 ∧ minute < 60 ∧ second < 60 ∧ nanosecond < 2 * nanosecondsPerSecond

@[ext]
structure Time where
  hour : Nat
  minute : Nat
  second : Nat
  nanosecond : Nat
  isTime : IsTime hour minute second nanosecond := by decide
deriving DecidableEq

structure DateTime where
  date : Date
  time : Time
deriving DecidableEq

/-- A local time and its distance in seconds from universal time, less than a day. -/
structure OffsetDateTime where
  localTime : DateTime
  offset : Int
  offset_lt : -86400 < offset ∧ offset < 86400 := by decide
deriving DecidableEq

namespace Date

/-- The days in the years of the calendar. -/
abbrev IsWithinYears (d : Date) : Prop :=
  leastYear ≤ d.year ∧ d.year ≤ greatestYear

def ofParts? (year : Int) (month day : Nat) : Option Date :=
  if h : IsDate year month day then some ⟨year, month, day, h⟩ else none

/-- The days of the year before the given month. -/
def daysBeforeMonth (year : Int) (month : Nat) : Nat :=
  (List.range (month - 1)).foldl (fun days m => days + daysInMonth year (m + 1)) 0

/-- The days from the first day of the year 1; division rounds down, so earlier years count
backwards.
-/
def dayNumber (d : Date) : Int :=
  let past := d.year - 1
  past * 365 + past / 4 - past / 100 + past / 400 + daysBeforeMonth d.year d.month + (d.day - 1)

/-- The first and the last day in the years of the calendar. -/
def first : Date := ⟨leastYear, 1, 1, by decide⟩

def last : Date := ⟨greatestYear, 12, 31, by decide⟩

end Date

namespace Time

/-- The time that a clock shows in this way. The second 60 is allowed in any minute and is the leap
second behind the second 59.
-/
def ofParts? (hour minute second nanosecond : Nat) : Option Time :=
  if h : hour < 24 ∧ minute < 60 ∧ second ≤ 60 ∧ nanosecond < nanosecondsPerSecond then
    some {
      hour := hour
      minute := minute
      second := min second 59
      nanosecond := nanosecond + (if second = 60 then nanosecondsPerSecond else 0)
      isTime := by split <;> omega
    }
  else
    none

/-- The nanoseconds that the digits after the point of a second make; digits after the ninth are
dropped.
-/
def nanoseconds (places : List Nat) : Nat :=
  Text.ofDigits 10 ((places ++ List.replicate 9 0).take 9)

/-- The seconds since midnight; a leap second counts as the second before it. -/
def secondOfDay (t : Time) : Nat :=
  t.hour * 3600 + t.minute * 60 + t.second

end Time

/-- A point in time: seconds of universal time and the nanoseconds after them, beyond a whole second
in a leap second.
-/
structure Instant where
  second : Int
  fraction : Nat
deriving DecidableEq

namespace OffsetDateTime

def instant (t : OffsetDateTime) : Instant :=
  {
    second := t.localTime.date.dayNumber * 86400 + t.localTime.time.secondOfDay - t.offset
    fraction := t.localTime.time.nanosecond
  }

/-- Equality of instants, whatever the offsets. -/
def sameInstant (s t : OffsetDateTime) : Bool :=
  s.instant == t.instant

/-- A local time with an offset of less than a day whose day in universal time is in the years of the
calendar.
-/
def ofParts? (localTime : DateTime) (offset : Int) : Option OffsetDateTime :=
  if h : -86400 < offset ∧ offset < 86400 then
    let t : OffsetDateTime := ⟨localTime, offset, h⟩
    let day := t.instant.second / 86400
    if Date.first.dayNumber ≤ day ∧ day ≤ Date.last.dayNumber then some t else none
  else
    none

end OffsetDateTime

end QueryKey.Calendar
