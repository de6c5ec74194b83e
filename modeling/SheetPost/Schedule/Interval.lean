/-
Intervals between runs, as in `@every 1h30m`: a list of numbers with units and nothing between them. Seconds are counted
in 64 bits, by a program that is built with checks of its arithmetic: where a product or a sum does not fit there is no
result at all, and the program stops.
-/
import SheetPost.Text.Numeral

namespace SheetPost.Schedule

/-- a length of time -/
structure Interval where
  secs : Nat
  nanos : Nat
deriving DecidableEq, Repr

/-- the units of an interval -/
inductive TimeUnit where
  | millisecond
  | second
  | minute
  | hour
deriving DecidableEq, Repr

namespace Interval

def zero : Interval := ⟨0, 0⟩

/-- the largest number that an item, or the seconds of an interval, can be -/
def maxNumber : Nat := 18446744073709551615

/-- nanoseconds altogether -/
def totalNanos (d : Interval) : Nat := d.secs * 1000000000 + d.nanos

/-- what can not be counted in 64 bits -/
inductive Overflow where
  /-- the seconds of one item -/
  | product
  /-- the seconds of several items -/
  | sum
deriving DecidableEq, Repr

/-- the wording of the cause -/
def Overflow.message : Overflow → String
  | .product => "attempt to multiply with overflow"
  | .sum => "overflow when adding durations"

/-- so many times so many seconds, if they can be counted -/
def ofProduct? (n secs : Nat) : Option Interval := if n * secs ≤ maxNumber then some ⟨n * secs, 0⟩ else none

/-- an item as an interval -/
def ofItem? (n : Nat) : TimeUnit → Option Interval
  | .millisecond => some ⟨n / 1000, n % 1000 * 1000000⟩
  | .second => some ⟨n, 0⟩
  | .minute => ofProduct? n 60
  | .hour => ofProduct? n 3600

/-- the sum of two intervals, if its seconds can be counted -/
def add? (a b : Interval) : Option Interval :=
  let nanos := a.nanos + b.nanos
  let secs := a.secs + b.secs + nanos / 1000000000
  if secs ≤ maxNumber then some ⟨secs, nanos % 1000000000⟩ else none

/-- an item behind what was counted before it -/
def addItem (total : Interval) (n : Nat) (u : TimeUnit) : Except Overflow Interval :=
  match ofItem? n u with
  | none => .error .product
  | some item =>
    match total.add? item with
    | none => .error .sum
    | some total => .ok total

/-- what becomes of an interval's text -/
inductive Reading where
  | interval (d : Interval)
  | invalid
  | overflow (cause : Overflow)
deriving DecidableEq, Repr

/-- the unit at the front of a text; milliseconds go before minutes -/
def unit? : List Char → Option (TimeUnit × List Char)
  | 'm' :: 's' :: r => some (.millisecond, r)
  | 's' :: r => some (.second, r)
  | 'm' :: r => some (.minute, r)
  | 'h' :: r => some (.hour, r)
  | _ => none

theorem length_of_unit? {s r : List Char} {u : TimeUnit} (h : unit? s = some (u, r)) : r.length < s.length := by
  unfold unit? at h
  split at h
  · obtain ⟨_, rfl⟩ : _ ∧ _ := by simpa using h
    simp only [List.length_cons]
    omega
  · obtain ⟨_, rfl⟩ : _ ∧ _ := by simpa using h
    exact Nat.lt_succ_self _
  · obtain ⟨_, rfl⟩ : _ ∧ _ := by simpa using h
    exact Nat.lt_succ_self _
  · obtain ⟨_, rfl⟩ : _ ∧ _ := by simpa using h
    exact Nat.lt_succ_self _
  · simp at h

/-- the items of a text added to `total` -/
def readFrom (total : Interval) (s : List Char) : Reading :=
  match s with
  | [] => if total = zero then .invalid else .interval total
  | c :: r =>
    let digits := (c :: r).takeWhile Char.isDigit
    match _h : unit? ((c :: r).dropWhile Char.isDigit) with
    | none => .invalid
    | some (u, rest) =>
      match Text.readUnsigned? 10 maxNumber digits with
      | none => .invalid
      | some n =>
        match total.addItem n u with
        | .error cause => .overflow cause
        | .ok total => readFrom total rest
termination_by s.length
decreasing_by
  have h1 := length_of_unit? _h
  have h2 := ((c :: r).dropWhile_sublist Char.isDigit).length_le
  omega

/-- the interval that a text is: its items added up; nothing at all is none, and neither is zero -/
def read (s : List Char) : Reading := readFrom zero s

end Interval

end SheetPost.Schedule
