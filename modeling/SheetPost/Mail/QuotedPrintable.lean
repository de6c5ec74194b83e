/-
Quoted-printable: a text as printable ASCII in lines of at most 76 characters. A byte that is not printable is written
`=` and two hexadecimal digits, so is a blank that ends a line; a line too long is broken by `=` and a line break,
which the reader takes away again. Line breaks of the text stay line breaks.

`decode?` is the strict reader: it drops blanks at the ends of lines and refuses any other use of `=`.
-/
import SheetPost.Mail.Lines
import SheetPost.Text.Numeral
import SheetPost.Text.Utf8

namespace SheetPost.Mail.QuotedPrintable

/-! ## Writing -/

/-- the room in a line, less the one place that a soft break takes -/
def room : Nat := 75

/-- the byte is written as itself; a blank only where something follows it in its line -/
def isLiteral (last : Bool) (b : UInt8) : Bool :=
  if b == 0x20 || b == 0x09 then !last else b != 0x3D && 33 ≤ b && b ≤ 126

/-- a byte as written -/
def token (last : Bool) (b : UInt8) : List Char :=
  if isLiteral last b then [Char.ofNat b.toNat] else '=' :: Text.hexByte b

/-- the bytes of one line, of which `width` characters stand already in the current written line -/
def encodeLineFrom : Nat → List UInt8 → List Char
  | _, [] => []
  | width, b :: r =>
    let t := token r.isEmpty b
    if width + t.length > room then '=' :: (crlf ++ (t ++ encodeLineFrom t.length r))
    else t ++ encodeLineFrom (width + t.length) r

/-- one line of text -/
def encodeLine (line : List Char) : List Char := encodeLineFrom 0 (Text.Utf8.encode line)

/-- the line without the one CR that belongs to its line break -/
def dropCR (line : List Char) : List Char :=
  if line.getLast? = some '\r' then line.dropLast else line

/-- the lines of a text: ended by LF or CR LF, while a CR at the end of the text is part of the last line -/
def linesOf (text : List Char) : List (List Char) :=
  let pieces := Text.split (· == '\n') text
  pieces.dropLast.map dropCR ++ pieces.getLast?.toList

/-- a text in quoted-printable -/
def encode (text : List Char) : List Char := joinLines ((linesOf text).map encodeLine)

/-! ## Reading -/

/-- the bytes of one written line without blanks at its end, and whether a soft break ends it -/
def decodeLine? : List Char → Option (List UInt8 × Bool)
  | [] => some ([], false)
  | ['='] => some ([], true)
  | '=' :: a :: b :: r =>
    match Text.digitValue? 16 a, Text.digitValue? 16 b, decodeLine? r with
    | some x, some y, some (bytes, soft) => some (UInt8.ofNat (x * 16 + y) :: bytes, soft)
    | _, _, _ => none
  | c :: r =>
    if c == '=' || 0x80 ≤ c.toNat then none
    else (decodeLine? r).map fun (bytes, soft) => (UInt8.ofNat c.toNat :: bytes, soft)

/-- the bytes of written lines; nothing may end in a soft break without a line behind it -/
def decodeLines? : List (List Char) → Option (List UInt8)
  | [] => some []
  | [line] =>
    match decodeLine? (Text.dropEndWhile (fun c => c == ' ' || c == '\t') line) with
    | some (bytes, false) => some bytes
    | _ => none
  | line :: next :: lines =>
    match decodeLine? (Text.dropEndWhile (fun c => c == ' ' || c == '\t') line), decodeLines? (next :: lines) with
    | some (bytes, true), some rest => some (bytes ++ rest)
    | some (bytes, false), some rest => some (bytes ++ (0x0D :: 0x0A :: rest))
    | _, _ => none

/-- the bytes that a text in quoted-printable stands for -/
def decode? (s : List Char) : Option (List UInt8) := decodeLines? (splitLines s)

end SheetPost.Mail.QuotedPrintable
