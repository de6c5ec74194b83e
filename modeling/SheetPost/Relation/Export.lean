/-
The export of a relation: its rows become a table of text with the names of the columns on top, and the table becomes a
file to attach. A row that is not as wide as the header makes the whole export fail.
-/
import SheetPost.Mail.Message
import SheetPost.Relation.Rows
import SheetPost.Sheet.Workbook

namespace SheetPost.Relation

open SheetPost.Sheet SheetPost.Text

/-- why a relation cannot be exported -/
inductive ExportError where
  | source (relation : String) (cause : SourceError)
  /-- a row of the worksheet, counted from one, is not as wide as the header -/
  | width (relation : String) (row found expected : Nat)
  | sheet (cause : SheetError)
deriving DecidableEq, Repr

namespace ExportError

/-- the wording of the cause -/
def message : ExportError → String
  | .source relation cause => "failed to read relation " ++ relation ++ ": " ++ cause.message
  | .width relation row found expected =>
    let count (n : Nat) := String.ofList (decimal n)
    "relation " ++ relation ++ ": row " ++ count row ++ " has " ++ count found ++ " cells, expected " ++ count expected
  | .sheet cause => cause.message

/-- the wordings from the error down to its first cause -/
def trail (e : ExportError) : List String :=
  match e with
  | .source _ cause => e.message :: cause.trail
  | .width .. => [e.message]
  | .sheet cause => cause.trail

end ExportError

/-! ## Tables -/

/-- what stands in a table for NULL -/
def nullText : String := "NULL"

/-- the rows that are not as wide as the header, with their places -/
def Rows.misfits (rows : Rows) : List (List (Option String) × Nat) :=
  rows.rows.zipIdx.filter fun r => r.1.length != rows.columns.length

/-- the table of a result set, or the first row that does not fit; the header is row 1 -/
def Rows.document (relation : String) (rows : Rows) : Except ExportError Document :=
  match rows.misfits with
  | [] => .ok ⟨rows.columns :: rows.rows.map (·.map (·.getD nullText))⟩
  | (cells, i) :: _ => .error (.width relation (i + 2) cells.length rows.columns.length)

/-- the table of a relation by the answer to its query -/
def document (relation : String) (answer : Except SourceError Rows) : Except ExportError Document :=
  match answer with
  | .error cause => .error (.source relation cause)
  | .ok rows => rows.document relation

/-! ## Files -/

/-- the workbook of a table -/
def workbook (d : Document) : Except ExportError (List UInt8) := d.workbook.mapError .sheet

/-- a relation as a file to attach, by the answer to its query -/
def attachment (relation fileName : String) (answer : Except SourceError Rows) :
    Except ExportError Mail.Attachment := do
  let d ← document relation answer
  let content ← workbook d
  return ⟨fileName, Workbook.mimeType, content⟩

end SheetPost.Relation
