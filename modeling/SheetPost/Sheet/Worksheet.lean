/-
The worksheet of a table of text: every non-empty cell refers to a text of the table of texts. Cells are written row by
row, and the limits of a worksheet are checked in the same order.

The first cell beyond a limit is reported, and then there is no worksheet at all.
-/
import SheetPost.Sheet.CellName
import SheetPost.Sheet.Document
import SheetPost.Sheet.SharedStrings

namespace SheetPost.Sheet

open SheetPost.Text

/-! ## Limits -/

/-- the rows of a worksheet -/
def maxRows : Nat := 1048576

/-- the columns of a worksheet -/
def maxColumns : Nat := 16384

/-- the columns that can be counted -/
def maxCounted : Nat := 65536

/-- the rows that can be counted -/
def maxCountedRows : Nat := 4294967296

@[simp] theorem maxCountedRows_pos : 0 < maxCountedRows := by decide

/-- the characters of a cell -/
def maxCharacters : Nat := 32767

/-- why a table does not fit a worksheet -/
inductive SheetError where
  | tooManyColumns (n : Nat)
  | tooManyRows (n : Nat)
  | outside
  | tooLong
deriving DecidableEq, Repr

/-- the wording of what a worksheet itself refuses -/
def SheetError.detail : SheetError → String
  | .tooManyColumns n | .tooManyRows n => String.ofList (decimal n)
  | .outside => "Row or column exceeds Excel's allowed limits (1,048,576 x 16,384)."
  | .tooLong => "String exceeds Excel's limit of 32,767 characters."

/-- the wording of the cause -/
def SheetError.message (e : SheetError) : String :=
  match e with
  | .tooManyColumns _ => "too many columns for one worksheet: " ++ e.detail
  | .tooManyRows _ => "too many rows for one worksheet: " ++ e.detail
  | _ => "spreadsheet write failed: " ++ e.detail

/-- the wordings from the error down to its first cause -/
def SheetError.trail (e : SheetError) : List String :=
  e.message :: match e with
    | .tooManyColumns _ | .tooManyRows _ => []
    | _ => [e.detail]

/-! ## Cells -/

/-- a row with the columns of its cells and the numbers of their texts -/
structure Row where
  index : Nat
  cells : List (Nat × Nat)
deriving DecidableEq, Repr

/-- the rows with cells so far, the last one first, and the texts they refer to -/
structure Worksheet where
  rows : List Row
  strings : SharedStrings

namespace Worksheet

/-- no cells -/
def empty : Worksheet := ⟨[], .empty⟩

/-- what is wrong with a cell; an empty one is not written, so only its column must be countable -/
def fault? (width r c : Nat) (s : String) : Option SheetError :=
  if maxCounted ≤ c then some (.tooManyColumns width)
  else if s.isEmpty then none
  else if maxRows ≤ r || maxColumns ≤ c then some .outside
  else if maxCharacters < s.length then some .tooLong
  else none

/-- the cells of a row, the last one first, after one more -/
def addCell (width r : Nat) (acc : List (Nat × Nat) × SharedStrings) (cell : String × Nat) :
    Except SheetError (List (Nat × Nat) × SharedStrings) :=
  match fault? width r cell.2 cell.1 with
  | some e => .error e
  | none =>
    if cell.1.isEmpty then .ok acc
    else
      let (n, strings) := acc.2.use cell.1
      .ok ((cell.2, n) :: acc.1, strings)

/-- the worksheet of a table that is so high after one more row; a row without cells leaves no trace -/
def addRow (height : Nat) (w : Worksheet) (row : List String × Nat) : Except SheetError Worksheet :=
  if row.2 < maxCountedRows then do
    let (cells, strings) ← row.1.zipIdx.foldlM (addCell row.1.length row.2) ([], w.strings)
    return if cells.isEmpty then ⟨w.rows, strings⟩ else ⟨⟨row.2, cells.reverse⟩ :: w.rows, strings⟩
  else .error (.tooManyRows height)

/-- the worksheet of a table -/
def ofDocument (d : Document) : Except SheetError Worksheet := do
  let w ← d.rows.zipIdx.foldlM (addRow d.rows.length) empty
  return { w with rows := w.rows.reverse }

/-! ## Extent -/

/-- the least and the greatest of some numbers -/
def bounds : List Nat → Option (Nat × Nat)
  | [] => none
  | n :: r => some (r.foldl (fun (a, b) m => (min a m, max b m)) (n, n))

/-- the cells between the corners of what is used; the first one if nothing is -/
def dimension (w : Worksheet) : List Char :=
  match bounds (w.rows.map (·.index)), bounds (w.rows.flatMap fun r => r.cells.map (·.1)) with
  | some (r, r'), some (c, c') => CellName.range r c r' c'
  | _, _ => CellName.cell 0 0

/-- how many rows share one note of the columns they use -/
def spanHeight : Nat := 16

/-- the rows at the front that lie in the same block of rows, and the others -/
def cutBlock (block : Nat) (rows : List Row) : List Row × List Row :=
  let same (r : Row) : Bool := r.index / spanHeight == block
  (rows.takeWhile same, rows.dropWhile same)

theorem length_cutBlock_le (block : Nat) (rows : List Row) : (cutBlock block rows).2.length ≤ rows.length :=
  (List.dropWhile_suffix _).length_le

/-- the columns that rows use between them, counted from one -/
def spans (rows : List Row) : String :=
  match bounds (rows.flatMap fun r => r.cells.map (·.1)) with
  | some (c, c') => String.ofList (decimal (c + 1) ++ ':' :: decimal (c' + 1))
  | none => ""

/-! ## Writing -/

/-- a cell -/
def cellXml (row : Nat) (cell : Nat × Nat) : Xml :=
  .element "c" [("r", String.ofList (CellName.cell row cell.1)), ("t", "s")]
    [.element "v" [] [.text (decimal cell.2)]]

/-- a row -/
def rowXml (spans : String) (r : Row) : Xml :=
  .element "row" [("r", String.ofList (CellName.row r.index)), ("spans", spans)] (r.cells.map (cellXml r.index))

/-- rows block by block -/
def rowsXml (rows : List Row) : List Xml :=
  match rows with
  | [] => []
  | r :: more =>
    let cut := cutBlock (r.index / spanHeight) more
    let block := r :: cut.1
    block.map (rowXml (spans block)) ++ rowsXml cut.2
termination_by rows.length
decreasing_by exact Nat.lt_succ_of_le (length_cutBlock_le _ _)

/-- the namespace of relations between parts -/
def relationNamespace : String := "http://schemas.openxmlformats.org/officeDocument/2006/relationships"

/-- the worksheet -/
def xml (w : Worksheet) : Xml :=
  .element "worksheet" [("xmlns", SharedStrings.mainNamespace), ("xmlns:r", relationNamespace)]
    [.leaf "dimension" [("ref", String.ofList w.dimension)],
      .group "sheetViews" [.leaf "sheetView" [("tabSelected", "1"), ("workbookViewId", "0")]],
      .leaf "sheetFormatPr" [("defaultRowHeight", "15")],
      .group "sheetData" (rowsXml w.rows),
      .leaf "pageMargins" [("left", "0.7"), ("right", "0.7"), ("top", "0.75"), ("bottom", "0.75"), ("header", "0.3"),
        ("footer", "0.3")]]

end Worksheet

end SheetPost.Sheet
