/-
Lines as mail counts them: ended by CR LF, and by nothing else.

Main statement: putting the lines of a text together again gives the text (`joinLines_splitLines`).
-/
import SheetPost.Text.Blank

namespace SheetPost.Mail

/-- the line break of mail -/
def crlf : List Char := ['\r', '\n']

/-- the lines of a text: one more than there are line breaks -/
def splitLines : List Char → List (List Char)
  | [] => [[]]
  | '\r' :: '\n' :: r => [] :: splitLines r
  | c :: r =>
    match splitLines r with
    | [] => [[c]]
    | line :: lines => (c :: line) :: lines

/-- lines with breaks between them -/
def joinLines (lines : List (List Char)) : List Char := Text.join crlf lines

/-- no character is beyond ASCII -/
def isAscii (s : List Char) : Bool := s.all (·.toNat < 0x80)

/-- a line break of either kind stands in the text -/
def hasBreak (s : List Char) : Bool := s.any fun c => c == '\r' || c == '\n'

theorem splitLines_ne_nil (s : List Char) : splitLines s ≠ [] := by
  fun_cases splitLines s <;> simp

theorem joinLines_splitLines (s : List Char) : joinLines (splitLines s) = s := by
  fun_induction splitLines s with
  | case1 => rfl
  | case2 r ih =>
    cases hs : splitLines r with
    | nil => exact absurd hs (splitLines_ne_nil r)
    | cons line lines =>
      rw [hs] at ih
      simp only [joinLines, Text.join, crlf] at ih ⊢
      simp [ih]
  | case3 c r _ hs _ => exact absurd hs (splitLines_ne_nil r)
  | case4 c r _ line lines hs ih =>
    rw [hs] at ih
    unfold joinLines at ih ⊢
    rw [Text.join_cons_head, ih]

end SheetPost.Mail
