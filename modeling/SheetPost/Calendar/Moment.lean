/-
Moments: a date and a time of day as a clock shows them, with the clock's distance from UTC at that moment.
-/
import SheetPost.Calendar.Date

namespace SheetPost.Calendar

/-- a time of day to the second -/
structure Time where
  hour : Nat
  minute : Nat
  second : Nat
deriving DecidableEq, Repr

namespace Time

def midnight : Time := ⟨0, 0, 0⟩

/-- seconds since midnight -/
def seconds (t : Time) : Nat := t.hour * 3600 + t.minute * 60 + t.second

/-- the time so many seconds after midnight -/
def ofSeconds (n : Nat) : Time := ⟨n / 3600, n / 60 % 60, n % 60⟩

theorem ofSeconds_seconds {t : Time} (hm : t.minute < 60) (hs : t.second < 60) : ofSeconds t.seconds = t := by
  obtain ⟨h, m, s⟩ := t
  simp only [ofSeconds, seconds, Time.mk.injEq] at *
  omega

end Time

/-- a moment as shown by a clock that is `offset` seconds ahead of UTC -/
structure Moment where
  date : Date
  time : Time
  nanos : Nat
  offset : Int
deriving DecidableEq, Repr

namespace Moment

/-- seconds from 1970-01-01 on the clock itself -/
def localSeconds (m : Moment) : Int := m.date.dayNumber * 86400 + m.time.seconds

/-- seconds from 1970-01-01 in UTC -/
def utcSeconds (m : Moment) : Int := m.localSeconds - m.offset

/-- the moment of a clock so many seconds from 1970-01-01 -/
def ofLocalSeconds (seconds : Int) (nanos : Nat) (offset : Int) : Moment :=
  ⟨Date.ofDayNumber (seconds / 86400), Time.ofSeconds (seconds % 86400).toNat, nanos, offset⟩

/-- nanoseconds in a second -/
def nanosPerSecond : Nat := 1000000000

/-- the last second that any clock shows, in UTC: the end of the year 262142 -/
def lastUtcSecond : Int := daysBeforeYear 262143 * 86400 - 1

/-- `a` is earlier than `b` -/
def before (a b : Moment) : Prop :=
  a.utcSeconds < b.utcSeconds ∨ (a.utcSeconds = b.utcSeconds ∧ a.nanos < b.nanos)

instance (a b : Moment) : Decidable (before a b) := by unfold before; infer_instance

end Moment

end SheetPost.Calendar
