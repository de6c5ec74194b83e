/-
Schedules as an operator writes them: cron expressions of five, six or seven fields, shortcuts such as `@daily`, and
intervals such as `@every 90s`; and the next moment after a given one.
-/
import SheetPost.Cron.Search
import SheetPost.Schedule.Interval
import SheetPost.Schedule.Weekday
import SheetPost.Text.Quoted

namespace SheetPost

open SheetPost.Text SheetPost.Calendar

/-- when to run -/
inductive Schedule where
  /-- at the moments that the fields select; `source` is the expression they were read from -/
  | cron (source : String) (fields : Cron.Fields)
  | every (d : Schedule.Interval)
deriving DecidableEq, Repr

/-- why a text is not a schedule -/
inductive ScheduleError where
  | empty
  | unknownShortcut (text : String)
  | invalidEvery (text : String)
  | dayOfWeek (field : String)
  | fieldCount (n : Nat)
  | cron
  /-- an interval can not be counted -/
  | overflow (cause : Schedule.Interval.Overflow)
deriving DecidableEq, Repr

/-- the wording of the cause -/
def ScheduleError.message : ScheduleError → String
  | .empty => "empty schedule expression"
  | .unknownShortcut text => "unknown shortcut " ++ text
  | .invalidEvery text => "invalid @every duration " ++ quoted text
  | .dayOfWeek field => "invalid day-of-week field " ++ quoted field
  | .fieldCount n => "expected 5, 6 or 7 fields, found " ++ String.ofList (decimal n)
  | .cron => "invalid cron expression: Invalid expression: Invalid cron expression."
  | .overflow cause => cause.message

namespace Schedule

/-! ## Reading -/

/-- the expression that a shortcut stands for -/
def shortcut? (s : String) : Option String :=
  [("@yearly", "0 0 0 1 1 *"), ("@annually", "0 0 0 1 1 *"), ("@monthly", "0 0 0 1 * *"), ("@weekly", "0 0 0 * * 1"),
    ("@daily", "0 0 0 * * *"), ("@midnight", "0 0 0 * * *"), ("@hourly", "0 0 * * * *")].lookup s

/-- a cron expression whose week begins with Sunday as 1 -/
def ofCron (source : List Char) : Except ScheduleError Schedule :=
  match Cron.Fields.parse? source with
  | some fields => .ok (.cron (String.ofList source) fields)
  | none => .error .cron

/-- an interval -/
def ofEvery (s : List Char) : Except ScheduleError Schedule :=
  match Interval.read s with
  | .interval d => .ok (.every d)
  | .invalid => .error (.invalidEvery (String.ofList s))
  | .overflow cause => .error (.overflow cause)

/-- fields with spaces between them, the last of them a day-of-week field to be renumbered -/
def ofFields (others : List (List Char)) (dayOfWeek : List Char) : Except ScheduleError Schedule :=
  match Weekday.renumber? dayOfWeek with
  | some d => ofCron (join [' '] (others ++ [d]))
  | none => .error (.dayOfWeek (String.ofList dayOfWeek))

/-- a cron expression by its count of fields: five lack the seconds, seven are taken as they stand -/
def ofExpression (s : List Char) : Except ScheduleError Schedule :=
  match words s with
  | [m, h, d, mo, w] => ofFields [['0'], m, h, d, mo] w
  | [sec, m, h, d, mo, w] => ofFields [sec, m, h, d, mo] w
  | [_, _, _, _, _, _, _] => ofCron s
  | fields => .error (.fieldCount fields.length)

/-- a schedule -/
def parse (text : String) : Except ScheduleError Schedule :=
  let s := trim text.toList
  match s with
  | [] => .error .empty
  | '@' :: _ =>
    match after? "@every".toList s with
    | some rest => ofEvery (trim rest)
    | none =>
      match shortcut? (String.ofList s) with
      | some expression => ofCron expression.toList
      | none => .error (.unknownShortcut (String.ofList s))
  | s => ofExpression s

/-! ## The next moment -/

/-- the longest interval that moments move by: 2^63 - 1 milliseconds -/
def longestStep : Interval := ⟨9223372036854775, 807000000⟩

/-- the first moment of the schedule after `now` in a zone, if there is one -/
def nextIn? (s : Schedule) (z : Zone) (now : Moment) : Option Moment :=
  match s with
  | .cron _ fields => fields.nextIn? z now
  | .every d => if d.totalNanos ≤ longestStep.totalNanos then z.add? now d.secs d.nanos else none

/-- the first moment after `now` on a clock that keeps its distance from UTC -/
def next? (s : Schedule) (now : Moment) : Option Moment := s.nextIn? (.fixed now.offset) now

end Schedule

end SheetPost
