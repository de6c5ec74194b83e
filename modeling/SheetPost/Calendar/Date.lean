/-
Dates of the Gregorian calendar, carried on without end in both directions, and their count in days from 1970-01-01.
-/

namespace SheetPost.Calendar

/-! ## Months and years -/

/-- a leap year -/
def isLeap (year : Int) : Bool := year % 4 == 0 && (year % 100 != 0 || year % 400 == 0)

/-- the length of a month, numbered from 1 -/
def daysInMonth (year : Int) (month : Nat) : Nat :=
  match month with
  | 2 => if isLeap year then 29 else 28
  | 4 | 6 | 9 | 11 => 30
  | _ => 31

/-- the days of a year before a month -/
def daysBeforeMonth (year : Int) (month : Nat) : Nat :=
  (List.range' 1 (month - 1)).foldl (fun days m => days + daysInMonth year m) 0

/-- the days from 1970-01-01 to the first day of a year -/
def daysBeforeYear (year : Int) : Int :=
  let y := year - 1
  365 * y + y / 4 - y / 100 + y / 400 - 719162

/-! ## Dates -/

/-- a day of the calendar -/
structure Date where
  year : Int
  month : Nat
  day : Nat
deriving DecidableEq, Repr

namespace Date

/-- the date exists -/
def isValid (d : Date) : Bool :=
  1 ≤ d.month && d.month ≤ 12 && 1 ≤ d.day && d.day ≤ daysInMonth d.year d.month

/-- the days from 1970-01-01 to a date -/
def dayNumber (d : Date) : Int := daysBeforeYear d.year + daysBeforeMonth d.year d.month + d.day - 1

/-- the day of the week from 1, which is Sunday, to 7 -/
def weekday (d : Date) : Nat := ((d.dayNumber + 4) % 7).toNat + 1

/-- the day after -/
def next (d : Date) : Date :=
  if d.day < daysInMonth d.year d.month then { d with day := d.day + 1 }
  else if d.month < 12 then { d with month := d.month + 1, day := 1 }
  else ⟨d.year + 1, 1, 1⟩

/-- the year that holds a day: a guess by the mean length of a year is too late by at most one -/
def yearOf (n : Int) : Int :=
  let guess := (n + 719162) * 400 / 146097 + 1
  if daysBeforeYear guess ≤ n then
    if daysBeforeYear (guess + 1) ≤ n then guess + 1 else guess
  else guess - 1

/-- month and day of the day `n` of a year, counted from zero, the months from `month` on -/
def monthOf (year : Int) (n : Nat) : List Nat → Nat × Nat
  | [] => (12, n + 1)
  | m :: later =>
    if n < daysInMonth year m then (m, n + 1) else monthOf year (n - daysInMonth year m) later

/-- the date of a day -/
def ofDayNumber (n : Int) : Date :=
  let year := yearOf n
  let (month, day) := monthOf year (n - daysBeforeYear year).toNat (List.range' 1 12)
  ⟨year, month, day⟩

end Date

end SheetPost.Calendar
