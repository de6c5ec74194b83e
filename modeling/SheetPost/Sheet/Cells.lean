/-
Workbooks read back: the texts of the table of texts and the cells of the worksheet, as a spreadsheet program sees them.
A cell that the worksheet does not name is empty.
-/
import SheetPost.Sheet.Token
import SheetPost.Sheet.Workbook

namespace SheetPost.Sheet

open SheetPost.Text

/-! ## The table of texts -/

namespace SharedStrings

/-- the character of an escape `_xHHHH_` at the front, and what follows it -/
def readEscape? : List Char → Option (Char × List Char)
  | '_' :: 'x' :: a :: b :: c :: d :: '_' :: r => (readDigits? 16 [a, b, c, d]).map fun n => (Char.ofNat n, r)
  | _ => none

/-- a text of the table with its escapes resolved -/
def unescapeText (s : List Char) : List Char :=
  match s with
  | [] => []
  | c :: r =>
    match readEscape? (c :: r) with
    | some (d, rest) => if rest.length ≤ r.length then d :: unescapeText rest else c :: unescapeText r
    | none => c :: unescapeText r
termination_by s.length
decreasing_by all_goals simp only [List.length_cons]; omega

/-- a blank of XML -/
def isSpace (c : Char) : Bool := c == ' ' || c == '\t' || c == '\n' || c == '\r'

/-- the text of an element: blanks at its ends are dropped unless the element says that they are kept -/
def textOf (attributes : List (List Char × List Char)) (s : List Char) : List Char :=
  if attributes.lookup "xml:space".toList = some "preserve".toList then s else trimWhile isSpace s

/-- the texts of the items; an item holds the texts of its `t` elements, whether they stand in runs or not. `element` is
the attributes of the `t` element that is open -/
def readItems (item : Option (List Char)) (element : Option (List (List Char × List Char))) :
    List Token → List (List Char)
  | [] => []
  | .opening name attributes :: r =>
    if name = "si".toList then readItems (some []) none r
    else readItems item (if name = "t".toList then some attributes else none) r
  | .closing name :: r =>
    if name = "si".toList then item.toList ++ readItems none none r else readItems item none r
  | .empty _ _ :: r => readItems item none r
  | .text s :: r =>
    match element with
    | some attributes => readItems (item.map (· ++ unescapeText (textOf attributes s))) element r
    | none => readItems item none r

/-- the texts of a table -/
def read? (s : List Char) : Option (List (List Char)) := (Token.readDocument? s).map (readItems none none)

end SharedStrings

/-! ## The worksheet -/

namespace Worksheet

/-- the cells that refer to texts: row, column and the number of the text -/
def readRefs? (cell : Option (Nat × Nat)) (inValue : Bool) : List Token → Option (List ((Nat × Nat) × Nat))
  | [] => some []
  | .opening name attributes :: r =>
    if name = "c".toList then
      if attributes.lookup "t".toList = some "s".toList then
        match (attributes.lookup "r".toList).bind CellName.readCell? with
        | some position => readRefs? (some position) false r
        | none => none
      else none
    else readRefs? cell (name = "v".toList) r
  | .text s :: r =>
    match inValue, cell with
    | true, some position =>
      match readDigits? 10 s, readRefs? none false r with
      | some n, some more => some ((position, n) :: more)
      | _, _ => none
    | _, _ => readRefs? cell inValue r
  | .closing _ :: r => readRefs? cell false r
  | .empty _ _ :: r => readRefs? cell inValue r

end Worksheet

namespace Workbook

/-- the cells of a worksheet with their texts; every reference must lead to a text -/
def readCells? (sheet : List Char) (strings : Option (List Char)) : Option (List ((Nat × Nat) × List Char)) := do
  let tokens ← Token.readDocument? sheet
  let refs ← Worksheet.readRefs? none false tokens
  let texts ← match strings with
    | some s => SharedStrings.read? s
    | none => some []
  refs.mapM fun (position, n) => (texts[n]?).map fun t => (position, t)

/-- the cells of a workbook by its parts -/
def cells? (parts : List Part) : Option (List ((Nat × Nat) × List Char)) := do
  let sheet ← parts.find? (·.name == sheetPart)
  readCells? sheet.text ((parts.find? (·.name == stringsPart)).map (·.text))

end Workbook

namespace Document

/-- the cells that hold something, row by row -/
def filled (d : Document) : List ((Nat × Nat) × List Char) :=
  d.rows.zipIdx.flatMap fun (row, r) =>
    (row.zipIdx.filter fun cell => !cell.1.isEmpty).map fun (s, c) => ((r, c), s.toList)

end Document

end SheetPost.Sheet
