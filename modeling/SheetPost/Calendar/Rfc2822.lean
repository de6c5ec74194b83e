/-
The date of a mail message: `Sun, 18 Oct 2026 09:00:00 +0000`.
-/
import SheetPost.Calendar.Moment
import SheetPost.Text.Numeral

namespace SheetPost.Calendar.Rfc2822

open SheetPost.Text

/-- the days of the week from Sunday on -/
def dayNames : List String := ["Sun", "Mon", "Tue", "Wed", "Thu", "Fri", "Sat"]

/-- the months from January on -/
def monthNames : List String :=
  ["Jan", "Feb", "Mar", "Apr", "May", "Jun", "Jul", "Aug", "Sep", "Oct", "Nov", "Dec"]

/-- a name by its number, counted from one -/
def nameAt (names : List String) (n : Nat) : List Char := (names[n - 1]?.getD "").toList

/-- the distance from UTC in hours and minutes -/
def writeOffset (offset : Int) : List Char :=
  let minutes := offset.natAbs / 60
  (if offset < 0 then '-' else '+') :: (decimalPadded 2 (minutes / 60) ++ decimalPadded 2 (minutes % 60))

/-- the date and the time of day of a moment to the second -/
def write (m : Moment) : List Char :=
  let words := [nameAt dayNames m.date.weekday ++ [','], decimal m.date.day, nameAt monthNames m.date.month,
    decimalPadded 4 m.date.year.toNat,
    decimalPadded 2 m.time.hour ++ ':' :: (decimalPadded 2 m.time.minute ++ ':' :: decimalPadded 2 m.time.second),
    writeOffset m.offset]
  List.intercalate [' '] words

end SheetPost.Calendar.Rfc2822
