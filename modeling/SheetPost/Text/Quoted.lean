/-
A text in double quotes with escapes, as error messages show one: `\t`, `\r`, `\n`, `\"`, `\\` and `\0`, and the code
point in hexadecimal for what cannot be shown.
-/
import SheetPost.Text.Printable
import SheetPost.Text.Numeral

namespace SheetPost.Text

/-- the hexadecimal digits of `n`, lower case -/
def hexLower (n : Nat) : List Char := Nat.toDigits 16 n

/-- one character between the quotes -/
def escapeQuoted (c : Char) : List Char :=
  match c with
  | '\x00' => ['\\', '0']
  | '\t' => ['\\', 't']
  | '\r' => ['\\', 'r']
  | '\n' => ['\\', 'n']
  | '"' => ['\\', '"']
  | '\\' => ['\\', '\\']
  | c =>
    if isExtending c || !isPrintable c then '\\' :: 'u' :: '\x7b' :: (hexLower c.toNat ++ ['\x7d']) else [c]

/-- the text in double quotes -/
def quoted (s : String) : String :=
  String.ofList ('"' :: (s.toList.flatMap escapeQuoted ++ ['"']))

end SheetPost.Text
