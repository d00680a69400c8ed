import RecordMapping.Time.Calendar
import RecordMapping.Numeric.Binary

/-!
# Points in time

An instant counts seconds from the start of 1970 in universal time, and nanoseconds within the
second. Stored, it is a number of milliseconds: what is finer is dropped, towards the past.
Reading milliseconds back succeeds only in the range of years that instants have.
-/

namespace RecordMapping

/-- Seconds of a day. -/
def secondsPerDay : Int := 86400

/-- The first second that an instant can lie in: the year -262143 begins. -/
def leastSecond : Int := (Date.mk (-262143) 1 1).toDays * secondsPerDay

/-- The last second that an instant can lie in: the year 262142 ends. -/
def greatestSecond : Int := (Date.mk 262142 12 31).toDays * secondsPerDay + (secondsPerDay - 1)

/-- A point in time. Nanoseconds of a whole second or more are a leap second after the second. -/
structure Instant where
  seconds : Int
  nanos : Nat
  inRange : leastSecond ≤ seconds ∧ seconds ≤ greatestSecond
  nanos_lt : nanos < 2000000000
  deriving DecidableEq

namespace Instant

/-- The instant with the given seconds and nanoseconds, if there is one. -/
def of? (seconds : Int) (nanos : Nat) : Option Instant :=
  if h : (leastSecond ≤ seconds ∧ seconds ≤ greatestSecond) ∧ nanos < 2000000000 then
    some ⟨seconds, nanos, h.1, h.2⟩
  else none

/-- Whole milliseconds since the start of 1970, rounded towards the past. -/
def millis (t : Instant) : Int := t.seconds * 1000 + t.nanos / 1000000

/-- The instant so many milliseconds after the start of 1970, if it is in range. -/
def ofMillis? (millis : Int) : Option Instant :=
  of? (millis / 1000) ((millis % 1000).toNat * 1000000)

/-- The instant's date and time in universal time. -/
def dateTime (t : Instant) : DateTime :=
  let second := (t.seconds % secondsPerDay).toNat
  { date := .ofDays (t.seconds / secondsPerDay)
    time := ⟨second / 3600, second / 60 % 60, second % 60, t.nanos⟩ }

/-- Date and time, with the mark of universal time. -/
def text (t : Instant) : String := t.dateTime.text ++ "Z"

end Instant

end RecordMapping
