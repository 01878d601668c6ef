import Tributary.Clock.Span

/-!
# Instants and the calendar

An instant is a number of seconds since the Unix epoch and a number of nanoseconds. A leap second is
the second before it with a thousand million or more nanoseconds.

* `daysFromEpoch`: the day number of a date of the proleptic Gregorian calendar.
* `Instant.since?`: the age of an earlier instant, leap seconds counted.
* `Instant.ofSecs?`: an instant in the representable years.
-/

namespace Tributary

/-! ## Calendar -/

/-- Leap years of the Gregorian calendar. -/
def isLeapYear (year : Int) : Bool :=
  year % 4 == 0 && (year % 100 != 0 || year % 400 == 0)

/-- The number of days of a month. -/
def daysInMonth (year : Int) (month : Nat) : Nat :=
  if month = 2 then (if isLeapYear year then 29 else 28)
  else if month = 4 ∨ month = 6 ∨ month = 9 ∨ month = 11 then 30
  else 31

/-- Whether a month and a day exist in a year. -/
def isDate (year : Int) (month day : Nat) : Bool :=
  decide (1 ≤ month ∧ month ≤ 12 ∧ 1 ≤ day ∧ day ≤ daysInMonth year month)

/-- Days from the first of January of the year 1 to that of a given year. -/
def daysToYear (year : Int) : Int :=
  365 * (year - 1) + Int.fdiv (year - 1) 4 - Int.fdiv (year - 1) 100 + Int.fdiv (year - 1) 400

/-- Days of a year that lie before a month. -/
def daysToMonth (year : Int) (month : Nat) : Nat :=
  (List.range (month - 1)).foldl (fun days m => days + daysInMonth year (m + 1)) 0

/-- The number of a day, counted from the first of January 1970. -/
def daysFromEpoch (year : Int) (month day : Nat) : Int :=
  daysToYear year + daysToMonth year month + day - 1 - daysToYear 1970

/-! ## Instants -/

/-- A point in time. -/
structure Instant where
  secs : Int
  nanos : Nat
  deriving DecidableEq, Repr, Inhabited

namespace Instant

/-- Instants compare by seconds first. -/
def order (a b : Instant) : Ordering := (compare a.secs b.secs).then (compare a.nanos b.nanos)

/-- The first representable second. -/
def minSecs : Int := -8334601228800

/-- The last representable second. -/
def maxSecs : Int := 8210266876799

/-- The instant of a whole number of seconds and less than a second, in the representable years. -/
def ofSecs? (secs : Int) (nanos : Nat) : Option Instant :=
  if minSecs ≤ secs ∧ secs ≤ maxSecs then some ⟨secs, nanos⟩ else none

/-- The instant of a number of nanoseconds since the epoch. -/
def ofNanos (n : Int) : Instant := ⟨Int.fdiv n 1000000000, (Int.fmod n 1000000000).toNat⟩

/-- The second of the day. -/
def daySecond (t : Instant) : Int := Int.fmod t.secs 86400

/-- A leap second that lies between two times of day counts as a second of its own. -/
def leapBetween (a b : Instant) : Int :=
  if b.daySecond < a.daySecond ∧ 1000000000 ≤ b.nanos then 1
  else if a.daySecond < b.daySecond ∧ 1000000000 ≤ a.nanos then -1
  else 0

/-- The nanoseconds from `b` to `a`. -/
def difference (a b : Instant) : Int :=
  (a.secs - b.secs + leapBetween a b) * 1000000000 + ((a.nanos : Int) - b.nanos)

/-- The time from `b` to `a`, unless `b` is the later one. -/
def since? (a b : Instant) : Option Span :=
  if difference a b < 0 then none else some (Span.ofNanos (difference a b).toNat)

end Instant

end Tributary
