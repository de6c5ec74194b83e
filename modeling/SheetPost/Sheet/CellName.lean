/-
Names of cells: letters for the column, from `A` to `Z` and on with `AA`, and the number of the row.
-/
import SheetPost.Text.Numeral

namespace SheetPost.Sheet.CellName

/-- the letters of a column, counted from zero -/
def column (n : Nat) : List Char :=
  let letter := Char.ofNat (0x41 + n % 26)
  if n < 26 then [letter] else column (n / 26 - 1) ++ [letter]
termination_by n

/-- the number of a row, counted from zero -/
def row (n : Nat) : List Char := Text.decimal (n + 1)

/-- the name of a cell -/
def cell (r c : Nat) : List Char := column c ++ row r

/-- the cells between two corners; a single one by its own name -/
def range (r c r' c' : Nat) : List Char :=
  if r = r' ∧ c = c' then cell r c else cell r c ++ ':' :: cell r' c'

/-- the column of some letters behind `acc` columns of fewer letters -/
def readColumnFrom? (acc : Nat) : List Char → Option Nat
  | [] => if acc = 0 then none else some (acc - 1)
  | c :: r =>
    if 0x41 ≤ c.toNat ∧ c.toNat ≤ 0x5A then readColumnFrom? (acc * 26 + (c.toNat - 0x40)) r else none

/-- row and column of a cell's name -/
def readCell? (s : List Char) : Option (Nat × Nat) :=
  let letters := s.takeWhile Char.isAlpha
  match readColumnFrom? 0 letters, Text.readDigits? 10 (s.drop letters.length) with
  | some c, some n => if n = 0 then none else some (n - 1, c)
  | _, _ => none

end SheetPost.Sheet.CellName
