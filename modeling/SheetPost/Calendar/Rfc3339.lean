/-
The text of a moment: `2026-10-18T10:00:00.5+05:30`. A year outside 0 to 9999 has a sign; a fraction is written with
three, six or nine digits, whichever suffices, and not at all when it is zero.
-/
import SheetPost.Calendar.Moment
import SheetPost.Text.Blank
import SheetPost.Text.Numeral

namespace SheetPost.Calendar.Rfc3339

open SheetPost.Text

/-! ## Writing -/

/-- a year in four digits, or with its sign -/
def writeYear (y : Int) : List Char :=
  if 0 ≤ y ∧ y ≤ 9999 then decimalPadded 4 y.toNat
  else if y < 0 then '-' :: decimalPadded 4 y.natAbs
  else '+' :: decimalPadded 4 y.toNat

/-- a fraction of a second with its point -/
def writeFraction (nanos : Nat) : List Char :=
  if nanos = 0 then []
  else if nanos % 1000000 = 0 then '.' :: decimalPadded 3 (nanos / 1000000)
  else if nanos % 1000 = 0 then '.' :: decimalPadded 6 (nanos / 1000)
  else '.' :: decimalPadded 9 nanos

/-- the distance from UTC in hours and minutes -/
def writeOffset (offset : Int) : List Char :=
  let minutes := offset.natAbs / 60
  (if offset < 0 then '-' else '+') :: (decimalPadded 2 (minutes / 60) ++ ':' :: decimalPadded 2 (minutes % 60))

/-- a date -/
def writeDate (d : Date) : List Char :=
  writeYear d.year ++ '-' :: (decimalPadded 2 d.month ++ '-' :: decimalPadded 2 d.day)

/-- a time of day -/
def writeTime (t : Time) : List Char :=
  decimalPadded 2 t.hour ++ ':' :: (decimalPadded 2 t.minute ++ ':' :: decimalPadded 2 t.second)

/-- a moment -/
def write (m : Moment) : List Char :=
  writeDate m.date ++ 'T' :: (writeTime m.time ++ (writeFraction m.nanos ++ writeOffset m.offset))

/-! ## Reading -/

/-- a number of exactly `n` digits -/
def readFixed? (n : Nat) (s : List Char) : Option (Nat × List Char) :=
  if s.length < n then none else (readDigits? 10 (s.take n)).map fun v => (v, s.drop n)

/-- a year: four digits, or a sign and at least four digits -/
def readYear? (s : List Char) : Option (Int × List Char) :=
  let signed (r : List Char) : Option (Nat × List Char) :=
    let digits := r.takeWhile Char.isDigit
    if digits.length < 4 then none else (readDigits? 10 digits).map fun v => (v, r.drop digits.length)
  match s with
  | '+' :: r => (signed r).map fun (v, rest) => ((v : Int), rest)
  | '-' :: r => (signed r).map fun (v, rest) => (-(v : Int), rest)
  | s => (readFixed? 4 s).map fun (v, rest) => ((v : Int), rest)

/-- nanoseconds of the digits behind a point; those past the ninth are lost -/
def readFraction? (s : List Char) : Option (Nat × List Char) :=
  match s with
  | '.' :: r =>
    let digits := r.takeWhile Char.isDigit
    (readDigits? 10 ((digits ++ List.replicate 9 '0').take 9)).bind fun v =>
      if digits.isEmpty then none else some (v, r.drop digits.length)
  | s => some (0, s)

/-- the distance from UTC, which ends the text -/
def readOffset? (s : List Char) : Option Int :=
  match s with
  | ['Z'] => some 0
  | sign :: r =>
    if sign == '+' || sign == '-' then
      match readFixed? 2 r with
      | some (h, ':' :: r) =>
        match readFixed? 2 r with
        | some (m, []) =>
          if h < 24 && m < 60 then
            let seconds : Int := (h * 3600 + m * 60 : Nat)
            some (if sign == '-' then -seconds else seconds)
          else none
        | _ => none
      | _ => none
    else none
  | [] => none

/-- a number of two digits behind a mark -/
def readNext? (mark : Char) (s : List Char) : Option (Nat × List Char) := (after? [mark] s).bind (readFixed? 2)

/-- a moment -/
def read? (s : List Char) : Option Moment := do
  let (year, s) ← readYear? s
  let (month, s) ← readNext? '-' s
  let (day, s) ← readNext? '-' s
  let (hour, s) ← readNext? 'T' s
  let (minute, s) ← readNext? ':' s
  let (second, s) ← readNext? ':' s
  let (nanos, s) ← readFraction? s
  let offset ← readOffset? s
  let date : Date := ⟨year, month, day⟩
  if date.isValid && hour < 24 && minute < 60 && second < 60 then
    return ⟨date, ⟨hour, minute, second⟩, nanos, offset⟩
  else none

end SheetPost.Calendar.Rfc3339
