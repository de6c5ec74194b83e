/-
How the answer of a driver becomes a result set. The names of the columns are those of the first row, or of a
description of the query if no row was found. A cell is read as text, whatever the type of its column is: as the text
that it is, or else as bytes that are UTF-8 as far as they are.
-/
import SheetPost.Relation.Rows
import SheetPost.Text.Utf8

namespace SheetPost.Relation

open SheetPost.Text

/-- a cell as a driver has received it: whether it is NULL, and what it is if it is asked for as text or as bytes -/
structure Cell where
  isNull : Bool
  text? : Option (List Char)
  bytes? : Option (List UInt8)
deriving DecidableEq, Repr

/-- a row as a driver has received it, its cells under the names of their columns -/
abbrev FetchedRow := List (String × Cell)

/-- the text of a cell, or none for NULL -/
def Cell.read (column : String) (c : Cell) : Except SourceError (Option String) :=
  if c.isNull then .ok none
  else
    match c.text?, c.bytes? with
    | some s, _ => .ok (some (String.ofList s))
    | none, some bytes => .ok (some (String.ofList (Utf8.decodeLossy bytes)))
    | none, none => .error (.failed ("column " ++ column ++ " holds a value that cannot be rendered as text"))

/-- the result set of the rows that were found; the description is only asked for where there are none -/
def readRows (fetched : List FetchedRow) (described : Except SourceError (List String)) :
    Except SourceError Rows := do
  let columns ← match fetched with
    | first :: _ => .ok (first.map (·.1))
    | [] => described
  let rows ← fetched.mapM fun row => row.mapM fun (column, cell) => cell.read column
  return ⟨columns, rows⟩

end SheetPost.Relation
