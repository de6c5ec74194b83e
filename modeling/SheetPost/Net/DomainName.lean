/-
Names of hosts in any script, brought to ASCII: letters are folded, ideographic full stops become dots, characters
without a meaning in names are dropped or refused, and a label that is still not ASCII is written in Punycode behind
`xn--`.

The tables leave out the compatibility mapping of Unicode, by which a character stands for others, but for the wide
forms of ASCII. So some names with ligatures, small forms or mathematical letters are accepted here that the full mapping
refuses, or get another ASCII form: U+FE63, a small hyphen, is kept as it is.
-/
import SheetPost.Net.Punycode
import SheetPost.Text.Blank
import SheetPost.Text.Fold
import SheetPost.Text.Printable

namespace SheetPost.Net.DomainName

open SheetPost.Text

/-- characters that a name loses -/
def droppedRanges : List (Nat × Nat) := [
  (0xAD, 0xAD), (0x34F, 0x34F), (0x180B, 0x180D), (0x180F, 0x180F), (0x200B, 0x200B), (0x2060, 0x2060),
  (0x2064, 0x2064), (0xFE00, 0xFE0F), (0xFEFF, 0xFEFF), (0x1BCA0, 0x1BCA3), (0xE0100, 0xE01EF)]

/-- printable characters that no name has: symbols with a blank or punctuation in their plain form, and old letters -/
def refusedRanges : List (Nat × Nat) := [
  (0xA0, 0xA0), (0xA8, 0xA8), (0xAF, 0xAF), (0xB4, 0xB4), (0xB8, 0xB8), (0x2D8, 0x2DD), (0x37A, 0x37A),
  (0x37E, 0x37E), (0x384, 0x385), (0x4C0, 0x4C0), (0x10A0, 0x10C5), (0x115F, 0x1160), (0x17B4, 0x17B5),
  (0x1806, 0x1806), (0x1FBD, 0x1FBD), (0x1FBF, 0x1FC1), (0x1FCD, 0x1FCF), (0x1FDD, 0x1FDF), (0x1FED, 0x1FEE),
  (0x1FFD, 0x1FFE), (0x2000, 0x200A), (0x2017, 0x2017), (0x2024, 0x2026), (0x202F, 0x202F), (0x203E, 0x203E),
  (0x205F, 0x205F), (0x207D, 0x207E), (0x208D, 0x208E), (0x2132, 0x2132), (0x2183, 0x2183), (0x2474, 0x24B5),
  (0x2A74, 0x2A74), (0x2FF0, 0x2FFB), (0x3000, 0x3000), (0x309B, 0x309C), (0x3164, 0x3164), (0x3200, 0x321E),
  (0x3220, 0x3243), (0x33C2, 0x33C2), (0x33C7, 0x33C7), (0x33D8, 0x33D8), (0xFC5E, 0xFC63), (0xFDFA, 0xFDFB),
  (0xFE10, 0xFE10), (0xFE12, 0xFE14), (0xFE19, 0xFE19), (0xFE30, 0xFE30), (0xFE35, 0xFE36), (0xFE47, 0xFE4C),
  (0xFE50, 0xFE50), (0xFE52, 0xFE52), (0xFE54, 0xFE55), (0xFE59, 0xFE5A), (0xFE64, 0xFE65), (0xFE68, 0xFE68),
  (0xFE6B, 0xFE6B), (0xFE70, 0xFE70), (0xFE72, 0xFE72), (0xFE74, 0xFE74), (0xFE76, 0xFE76), (0xFE78, 0xFE78),
  (0xFE7A, 0xFE7A), (0xFE7C, 0xFE7C), (0xFE7E, 0xFE7E), (0xFF02, 0xFF02), (0xFF08, 0xFF09), (0xFF0C, 0xFF0C),
  (0xFF1A, 0xFF1C), (0xFF1E, 0xFF1E), (0xFF20, 0xFF20), (0xFF3B, 0xFF3D), (0xFFA0, 0xFFA0), (0xFFE3, 0xFFE3),
  (0xFFFC, 0xFFFD), (0x1F100, 0x1F10A), (0x1F110, 0x1F129), (0x2F868, 0x2F868), (0x2F874, 0x2F874),
  (0x2F91F, 0x2F91F), (0x2F95F, 0x2F95F), (0x2F9BF, 0x2F9BF)]

/-- full stops of other scripts -/
def isDot (c : Char) : Bool := c == '.' || c.toNat == 0x3002 || c.toNat == 0xFF0E || c.toNat == 0xFF61

/-- the character may stand in a name -/
def isAllowed (c : Char) : Bool :=
  c.toNat < 0x80 || (!inRanges c.toNat refusedRanges && isPrintable c)

/-- a name with folded letters and without the characters that names lose -/
def normalize (s : List Char) : List Char :=
  (s.filter fun c => !inRanges c.toNat droppedRanges).map fun c => if isDot c then '.' else foldCase c

/-- one label in ASCII; a label cannot begin with a character that joins the one before it -/
def labelToAscii? (label : List Char) : Option (List Char) :=
  if label.all (·.toNat < 0x80) then some label
  else if label.all isAllowed && !(label.head?.map isExtending).getD false then
    some ("xn--".toList ++ Punycode.encode label)
  else none

/-- a name in ASCII -/
def toAscii? (s : List Char) : Option (List Char) :=
  ((split (· == '.') (normalize s)).mapM labelToAscii?).map (join ['.'])

end SheetPost.Net.DomainName
