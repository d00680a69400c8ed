/-!
# Calendar dates and times of day

Days are counted from the first of January 1970 and written in the Gregorian calendar, extended to
all years. The arithmetic lets a year begin in March, so that the leap day is its last day, and
works in eras of 400 years, which all have the same number of days.
-/

namespace RecordMapping

/-- A day of the calendar. -/
structure Date where
  year : Int
  month : Nat
  day : Nat
  deriving DecidableEq

/-- A time of day. A leap second has nanoseconds that exceed a whole second. -/
structure TimeOfDay where
  hour : Nat
  minute : Nat
  second : Nat
  nanos : Nat
  deriving DecidableEq

/-- A day with a time of day, in no particular time zone. -/
structure DateTime where
  date : Date
  time : TimeOfDay
  deriving DecidableEq

/-- A day with a time of day, and by how many seconds these are ahead of universal time. -/
structure OffsetDateTime where
  dateTime : DateTime
  offset : Int
  offset_lt : offset.natAbs < 86400
  deriving DecidableEq

/-- Days from the first of March of the year 0 to the first of January 1970. -/
def epochOffset : Int := 719468

/-- Days in 400 years. -/
def daysPerEra : Int := 146097

namespace Date

/-- The day so many days after the first of January 1970. -/
def ofDays (days : Int) : Date :=
  let shifted := days + epochOffset
  let era := shifted / daysPerEra
  let dayOfEra := (shifted % daysPerEra).toNat
  let yearOfEra := (dayOfEra - dayOfEra / 1460 + dayOfEra / 36524 - dayOfEra / 146096) / 365
  let dayOfYear := dayOfEra - (365 * yearOfEra + yearOfEra / 4 - yearOfEra / 100)
  let monthFromMarch := (5 * dayOfYear + 2) / 153
  let month := if monthFromMarch < 10 then monthFromMarch + 3 else monthFromMarch - 9
  { year := yearOfEra + era * 400 + if month ≤ 2 then 1 else 0
    month
    day := dayOfYear - (153 * monthFromMarch + 2) / 5 + 1 }

/-- How many days a day lies after the first of January 1970. -/
def toDays (d : Date) : Int :=
  let year := if d.month ≤ 2 then d.year - 1 else d.year
  let era := year / 400
  let yearOfEra := year % 400
  let monthFromMarch : Int := if d.month ≤ 2 then d.month + 9 else d.month - 3
  let dayOfYear := (153 * monthFromMarch + 2) / 5 + d.day - 1
  era * daysPerEra + (365 * yearOfEra + yearOfEra / 4 - yearOfEra / 100 + dayOfYear) - epochOffset

end Date

/-! ## Written forms -/

/-- A number with zeros in front, up to the given width. -/
def padded (width n : Nat) : String :=
  let text := toString n
  String.ofList (List.replicate (width - text.length) '0') ++ text

/-- A year has at least four digits; outside the years 0 to 9999 it also has a sign. -/
def yearText (year : Int) : String :=
  if 0 ≤ year ∧ year ≤ 9999 then padded 4 year.toNat
  else (if year < 0 then "-" else "+") ++ padded 4 year.natAbs

/-- Year, month and day. -/
def Date.text (d : Date) : String :=
  yearText d.year ++ "-" ++ padded 2 d.month ++ "-" ++ padded 2 d.day

/-- A fraction of a second, in as many groups of three digits as it needs. -/
def fractionText (nanos : Nat) : String :=
  if nanos = 0 then ""
  else if nanos % 1000000 = 0 then "." ++ padded 3 (nanos / 1000000)
  else if nanos % 1000 = 0 then "." ++ padded 6 (nanos / 1000)
  else "." ++ padded 9 nanos

/-- Hours, minutes and seconds; a leap second is written as the next one, such as second 60. -/
def TimeOfDay.text (t : TimeOfDay) : String :=
  let (second, nanos) :=
    if t.nanos ≥ 1000000000 then (t.second + 1, t.nanos - 1000000000) else (t.second, t.nanos)
  padded 2 t.hour ++ ":" ++ padded 2 t.minute ++ ":" ++ padded 2 second ++ fractionText nanos

/-- Date and time with a `T` between them. -/
def DateTime.text (d : DateTime) : String := d.date.text ++ "T" ++ d.time.text

/-- Hours and minutes of an offset with its sign, and its seconds if there are any. -/
def offsetText (offset : Int) : String :=
  let seconds := offset.natAbs
  (if offset < 0 then "-" else "+") ++ padded 2 (seconds / 3600) ++ ":" ++
    padded 2 (seconds / 60 % 60) ++
      if seconds % 60 = 0 then "" else ":" ++ padded 2 (seconds % 60)

/-- Date and time, and then the offset. -/
def OffsetDateTime.text (d : OffsetDateTime) : String := d.dateTime.text ++ offsetText d.offset

end RecordMapping
