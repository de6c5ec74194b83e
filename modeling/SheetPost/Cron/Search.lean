/-
The next moment that a cron schedule names: a search from a floor, a month, a day and a time of day below which nothing
is taken. The floor is that of the second after the given moment, and it is spent in the first year, month and day that
the schedule selects, whether or not they are the ones that the floor comes from. The search goes by what the clocks of a
zone show; what they never show is left out.
-/
import SheetPost.Calendar.Zone
import SheetPost.Cron.Grammar

namespace SheetPost.Cron

open SheetPost.Calendar

/-- what the search must not fall below -/
structure Floor where
  month : Nat
  day : Nat
  time : Time
deriving DecidableEq, Repr

/-- no restriction -/
def Floor.bottom : Floor := ⟨1, 1, .midnight⟩

namespace Fields

/-- the fields select a date and a time of day -/
def selects (f : Fields) (date : Date) (t : Time) : Bool :=
  f.years.any (fun y => (y : Int) == date.year) && f.months.contains date.month && f.daysOfMonth.contains date.day &&
    f.daysOfWeek.contains date.weekday && f.hours.contains t.hour && f.minutes.contains t.minute &&
    f.seconds.contains t.second

/-- the first moment in a minute, from a second on -/
def inMinute? (f : Fields) (z : Zone) (date : Date) (hour minute second : Nat) : Option Moment :=
  (f.seconds.filter (second ≤ ·)).findSome? fun s => z.moment? date ⟨hour, minute, s⟩

/-- the first moment in an hour, from a minute and a second on -/
def inHour? (f : Fields) (z : Zone) (date : Date) (hour minute second : Nat) : Option Moment :=
  (if f.minutes.contains minute then f.inMinute? z date hour minute second else none)
  <|> (f.minutes.filter (minute < ·)).findSome? fun m => f.inMinute? z date hour m 0

/-- the first moment of a day, from a time on -/
def inDay? (f : Fields) (z : Zone) (date : Date) (t : Time) : Option Moment :=
  (if f.hours.contains t.hour then f.inHour? z date t.hour t.minute t.second else none)
  <|> (f.hours.filter (t.hour < ·)).findSome? fun h => f.inHour? z date h 0 0

/-- the first moment on one of the days, the first of which has the floor `t` -/
def onDays? (f : Fields) (z : Zone) (year month : Nat) : List Nat → Time → Option Moment
  | [], _ => none
  | d :: days, t =>
    let date : Date := ⟨year, month, d⟩
    (if f.daysOfWeek.contains date.weekday then f.inDay? z date t else none)
    <|> f.onDays? z year month days .midnight

/-- the first moment in a month -/
def inMonth? (f : Fields) (z : Zone) (year month day : Nat) (t : Time) : Option Moment :=
  let length := daysInMonth year month
  let days := f.daysOfMonth.filter fun d => min day length ≤ d && d ≤ length
  f.onDays? z year month days (if f.daysOfMonth.contains day then t else .midnight)

/-- the first moment in one of the months, the first of which has the floor of day and time -/
def inMonths? (f : Fields) (z : Zone) (year : Nat) : List Nat → Nat → Time → Option Moment
  | [], _, _ => none
  | m :: months, day, t => f.inMonth? z year m day t <|> f.inMonths? z year months 1 .midnight

/-- the first moment in a year -/
def inYear? (f : Fields) (z : Zone) (year : Nat) (floor : Floor) : Option Moment :=
  let months := f.months.filter (floor.month ≤ ·)
  if f.months.contains floor.month then f.inMonths? z year months floor.day floor.time
  else f.inMonths? z year months 1 .midnight

/-- the first moment in one of the years, the first of which has the floor -/
def inYears? (f : Fields) (z : Zone) : List Nat → Floor → Option Moment
  | [], _ => none
  | y :: years, floor => f.inYear? z y floor <|> f.inYears? z years .bottom

/-- the next moment after `now` in a zone; the schedule has no years before the first one -/
def nextIn? (f : Fields) (z : Zone) (now : Moment) : Option Moment :=
  let start := z.atUtc (now.utcSeconds + 1) now.nanos
  if start.date.year < 0 then none
  else f.inYears? z (f.years.filter (start.date.year.toNat ≤ ·)) ⟨start.date.month, start.date.day, start.time⟩

/-- the next moment after `now` on a clock that keeps its distance from UTC -/
def next? (f : Fields) (now : Moment) : Option Moment := f.nextIn? (.fixed now.offset) now

end Fields

end SheetPost.Cron
