/-
Header values: ASCII as it is, anything else as encoded words `=?utf-8?B?...?=` with a folded line between one word
and the next. No word is longer than 75 characters and none cuts a character in two.
-/
import SheetPost.Mail.Base64
import SheetPost.Text.Utf8

namespace SheetPost.Mail.EncodedWord

/-- what opens a word -/
def opening : List Char := "=?utf-8?B?".toList

/-- what closes a word -/
def closing : List Char := "?=".toList

/-- what stands between words: a line break and a blank, which a reader unfolds -/
def fold : List Char := crlf ++ [' ']

/-- the most bytes of text in a word -/
def capacity : Nat := 45

/-- one word -/
def word (s : List Char) : List Char := opening ++ (Base64.encode (Text.Utf8.encode s) ++ closing)

/-- the text behind `taken` in pieces that fill a word each, as much as goes in -/
def piecesFrom (taken : List Char) : List Char → List (List Char)
  | [] => if taken.isEmpty then [] else [taken]
  | c :: r =>
    if Text.Utf8.length taken + c.utf8Size > capacity then taken :: piecesFrom [c] r
    else piecesFrom (taken ++ [c]) r

/-- the pieces of a text -/
def pieces (s : List Char) : List (List Char) := piecesFrom [] s

/-- a header value -/
def encode (s : List Char) : List Char :=
  if isAscii s then s else Text.join fold ((pieces s).map word)

/-- the text of one word -/
def decodeWord? (w : List Char) : Option (List Char) :=
  match Text.after? opening w with
  | none => none
  | some r =>
    match Text.after? closing.reverse r.reverse with
    | none => none
    | some digits => (Base64.decode? digits.reverse).bind Text.Utf8.decode?

/-- pieces of a value with a blank before each; encoded words that follow each other make one text -/
def joinWords (encoded : Bool) : List (List Char) → List Char
  | [] => []
  | w :: r =>
    match decodeWord? w with
    | some t => (if encoded then t else ' ' :: t) ++ joinWords true r
    | none => ' ' :: (w ++ joinWords false r)

/-- an unfolded value with its encoded words decoded -/
def decodeText (s : List Char) : List Char := (joinWords false (Text.words s)).drop 1

/-- the text of words with folds between them -/
def decodeWords? (s : List Char) : Option (List Char) :=
  ((splitLines s).zipIdx.mapM fun (line, i) =>
    if i = 0 then decodeWord? line else (Text.after? [' '] line).bind decodeWord?).map List.flatten

end SheetPost.Mail.EncodedWord
