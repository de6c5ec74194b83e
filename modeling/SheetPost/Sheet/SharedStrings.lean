/-
The table of the texts in a workbook: each text once, in the order of first use, and cells refer to it by number.

In the table a control character is written `_xHHHH_`, and the underscore of a text that looks like such an escape as
`_x005F_`, so that it reads back as itself.
-/
import Std.Data.HashMap
import SheetPost.Sheet.Xml
import SheetPost.Text.Numeral
import SheetPost.Text.Search

namespace SheetPost.Sheet

open SheetPost.Text

/-! ## The table -/

/-- the texts with their numbers, and how often they are used altogether -/
structure SharedStrings where
  texts : Array String
  numbers : Std.HashMap String Nat
  uses : Nat

namespace SharedStrings

/-- no texts -/
def empty : SharedStrings := ⟨#[], ∅, 0⟩

/-- one more use of a text, and its number -/
def use (t : SharedStrings) (s : String) : Nat × SharedStrings :=
  match t.numbers[s]? with
  | some n => (n, { t with uses := t.uses + 1 })
  | none => (t.texts.size, ⟨t.texts.push s, t.numbers.insert s t.texts.size, t.uses + 1⟩)

/-! ## Escapes -/

/-- a control character that XML has no place for -/
def isControl (c : Char) : Bool := c.toNat < 0x20 && c != '\t' && c != '\n'

/-- the escape of a code point below 65536 -/
def escape (n : Nat) : List Char :=
  ['_', 'x', hexDigit (n / 4096 % 16), hexDigit (n / 256 % 16), hexDigit (n / 16 % 16), hexDigit (n % 16), '_']

/-- a text that begins like an escape: `_x`, four hexadecimal digits, and something behind them -/
def looksEscaped : List Char → Bool
  | '_' :: 'x' :: a :: b :: c :: d :: _ :: _ => [a, b, c, d].all fun x => (digitValue? 16 x).isSome
  | _ => false

/-- a text as it stands in the table, before it is written as XML -/
def escapeText : List Char → List Char
  | [] => []
  | c :: r =>
    if isControl c then escape c.toNat ++ escapeText r
    else if looksEscaped (c :: r) then escape c.toNat ++ escapeText r
    else c :: escapeText r

/-! ## Writing -/

/-- a blank that XML would drop at either end of a text -/
def isEdgeBlank (c : Char) : Bool := c == '\t' || c == '\n' || c == ' '

/-- the blanks of a text must be kept -/
def keepsBlanks (s : List Char) : Bool :=
  (s.head?.map isEdgeBlank).getD false || (s.getLast?.map isEdgeBlank).getD false

/-- the text is the markup of formatted runs -/
def isRuns (s : List Char) : Bool :=
  (after? "<r>".toList s).isSome && (after? "</r>".toList.reverse s.reverse).isSome

/-- one text of the table; markup of formatted runs goes in as it is -/
def item (s : String) : Xml :=
  let escaped := escapeText s.toList
  if isRuns s.toList then .element "si" [] [.markup escaped]
  else
    let attributes := if keepsBlanks s.toList then [("xml:space", "preserve")] else []
    .element "si" [] [.element "t" attributes [.text escaped]]

/-- the namespace of spreadsheets -/
def mainNamespace : String := "http://schemas.openxmlformats.org/spreadsheetml/2006/main"

/-- the table -/
def xml (t : SharedStrings) : Xml :=
  .element "sst" [("xmlns", mainNamespace), ("count", toString t.uses), ("uniqueCount", toString t.texts.size)]
    (t.texts.toList.map item)

end SharedStrings

end SheetPost.Sheet
