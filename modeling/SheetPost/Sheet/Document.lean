/-
Tables of text, the content of a worksheet: rows of cells, the first of them the header.
-/

namespace SheetPost.Sheet

/-- rows of text cells -/
structure Document where
  rows : List (List String)
deriving DecidableEq, Repr

namespace Document

/-- no rows at all -/
def empty : Document := ⟨[]⟩

/-- the first row -/
def header (d : Document) : List String := d.rows.head?.getD []

/-- the rows below the header -/
def dataRows (d : Document) : List (List String) := d.rows.tail

/-- the text at a position, if there is a cell -/
def cell? (d : Document) (row column : Nat) : Option String := d.rows[row]?.bind (·[column]?)

end Document

end SheetPost.Sheet
