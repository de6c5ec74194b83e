/-
Day-of-week fields with Sunday as 0 or 7, renumbered for a week that begins with Sunday as 1. A range that ends on
Sunday as 7 becomes a list, since Sunday moves to the front; names and stars stay as they are.
-/
import SheetPost.Text.Blank
import SheetPost.Text.Numeral

namespace SheetPost.Schedule.Weekday

open SheetPost.Text

/-- the day 0 to 7 in the week from 1 to 7 -/
def shift (n : Nat) : Nat := n % 7 + 1

/-- a bound of an item: a day, other text, or a number that is no day -/
inductive Bound where
  | day (n : Nat)
  | text
  | outside
deriving DecidableEq, Repr

/-- what a bound is; a number has at most eight bits -/
def bound (s : List Char) : Bound :=
  match readUnsigned? 10 255 s with
  | some n => if n ≤ 7 then .day n else .outside
  | none => .text

/-- the days from `first` to 7 by `step`, each once and in the order of the new week -/
def daysToSunday (first step : Nat) : List Nat :=
  (List.range' 1 7).filter fun d => (List.range' first (8 - first)).any fun n => (n - first) % step == 0 && shift n == d

/-- the largest step -/
def maxStep : Nat := 18446744073709551615

/-- a range ending on Sunday as a list of days, with its step if it has one -/
def listToSunday? (first : Nat) (step : Option (List Char)) : Option (List Char) :=
  match step with
  | none => some (join [','] ((daysToSunday first 1).map decimal))
  | some s =>
    match readUnsigned? 10 maxStep s with
    | some n => if n = 0 then none else some (join [','] ((daysToSunday first n).map decimal))
    | none => none

/-- the part of an item before its step -/
def renumberSpan? (s : List Char) : Option (List Char) :=
  match cutAt '-' s with
  | some (a, b) =>
    match bound a, bound b with
    | .outside, _ | _, .outside => none
    | .day m, .day n => some (decimal (shift m) ++ '-' :: decimal (shift n))
    | _, _ => some s
  | none =>
    match bound s with
    | .outside => none
    | .day n => some (decimal (shift n))
    | .text => some s

/-- span and step of an item -/
def cutStep (s : List Char) : List Char × Option (List Char) :=
  match cutAt '/' s with
  | some (span, step) => (span, some step)
  | none => (s, none)

/-- the first day of a range that ends on Sunday as 7 -/
def rangeToSunday? (span : List Char) : Option Nat :=
  match cutAt '-' span with
  | some (a, b) =>
    match bound a, bound b with
    | .day m, .day n => if n = 7 then some m else none
    | _, _ => none
  | none => none

/-- one item -/
def renumberItem? (s : List Char) : Option (List Char) :=
  let (span, step) := cutStep s
  match rangeToSunday? span with
  | some first => listToSunday? first step
  | none =>
    (renumberSpan? span).map fun t =>
      match step with
      | some step => t ++ '/' :: step
      | none => t

/-- a whole field, if every number in it is a day -/
def renumber? (field : List Char) : Option (List Char) :=
  ((split (· == ',') field).mapM renumberItem?).map (join [','])

end SheetPost.Schedule.Weekday
