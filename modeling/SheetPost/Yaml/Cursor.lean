/-
Reading position in a YAML text: the characters still to come, and where they stand. Columns and indices count
characters; a line ends with CR LF, CR, LF, U+0085, U+2028 or U+2029.

Main statements: every step forward leaves a shorter rest (`skip_lt`, `break?_lt`), on which the loops of the scanner
end.
-/

namespace SheetPost.Yaml

/-! ## Characters -/

/-- a character that a YAML text may hold -/
def isAllowed (c : Char) : Bool :=
  let n := c.toNat
  n == 0x09 || n == 0x0A || n == 0x0D || (0x20 ≤ n && n ≤ 0x7E) || n == 0x85 || (0xA0 ≤ n && n ≤ 0xD7FF) ||
    (0xE000 ≤ n && n ≤ 0xFFFD) || 0x10000 ≤ n

/-- a space or a tab -/
def isBlank (c : Char) : Bool := c == ' ' || c == '\t'

/-- a character that ends a line -/
def isBreak (c : Char) : Bool :=
  c == '\r' || c == '\n' || c.toNat == 0x85 || c.toNat == 0x2028 || c.toNat == 0x2029

/-- a character of names and handles -/
def isWord (c : Char) : Bool := (c.toNat < 0x80 && c.isAlphanum) || c == '_' || c == '-'

/-- the text ends here, or a blank or a break comes -/
def endsWord (s : List Char) : Bool :=
  match s with
  | [] => true
  | c :: _ => isBlank c || isBreak c

/-- the text ends here, or a break comes -/
def endsLine (s : List Char) : Bool :=
  match s with
  | [] => true
  | c :: _ => isBreak c

/-! ## Cursors -/

/-- a place in the text -/
structure Cursor where
  rest : List Char
  index : Nat
  line : Nat
  column : Nat

namespace Cursor

/-- the front of a text -/
def start (s : List Char) : Cursor := ⟨s, 0, 0, 0⟩

/-- how much is still to come -/
def left (c : Cursor) : Nat := c.rest.length

/-- the character at the cursor is `x` -/
def at? (c : Cursor) (x : Char) : Bool := c.rest.head? == some x

/-- the character at the cursor satisfies `p` -/
def is (c : Cursor) (p : Char → Bool) : Bool := (c.rest.head?.map p).getD false

/-- one character on, within a line -/
def skip (c : Cursor) : Cursor :=
  match c.rest with
  | [] => c
  | _ :: r => ⟨r, c.index + 1, c.line, c.column + 1⟩

/-- so many characters on, within a line -/
def skipMany (c : Cursor) : Nat → Cursor
  | 0 => c
  | n + 1 => c.skip.skipMany n

/-- the characters at the cursor that satisfy `p`, none of which is a break, and the cursor behind them -/
def span (c : Cursor) (p : Char → Bool) : List Char × Cursor :=
  let run := c.rest.takeWhile p
  (run, c.skipMany run.length)

/-- the line break at the cursor, as it counts in a scalar, and the cursor behind it -/
def break? (c : Cursor) : Option (Char × Cursor) :=
  match c.rest with
  | '\r' :: '\n' :: r => some ('\n', ⟨r, c.index + 2, c.line + 1, 0⟩)
  | x :: r =>
    if isBreak x then
      some (if x.toNat == 0x2028 || x.toNat == 0x2029 then x else '\n', ⟨r, c.index + 1, c.line + 1, 0⟩)
    else none
  | [] => none

/-- a document mark, `---` or `...`, stands alone at the front of the line -/
def atMark (c : Cursor) (x : Char) : Bool :=
  match c.rest with
  | a :: b :: d :: r => c.column == 0 && a == x && b == x && d == x && endsWord r
  | _ => false

/-- a document mark of either kind -/
def atAnyMark (c : Cursor) : Bool := c.atMark '-' || c.atMark '.'

theorem skip_lt {c : Cursor} (h : c.rest ≠ []) : c.skip.left < c.left := by
  cases hr : c.rest with
  | nil => exact absurd hr h
  | cons x r => simp [skip, left, hr]

theorem skip_le (c : Cursor) : c.skip.left ≤ c.left := by
  by_cases h : c.rest = []
  · simp [skip, h]
  · exact Nat.le_of_lt (skip_lt h)

theorem skipMany_le (c : Cursor) (n : Nat) : (c.skipMany n).left ≤ c.left := by
  induction n generalizing c with
  | zero => exact Nat.le_refl _
  | succ n ih => exact Nat.le_trans (ih c.skip) (skip_le c)

theorem skipMany_lt {c : Cursor} {n : Nat} (h : c.rest ≠ []) (hn : 0 < n) : (c.skipMany n).left < c.left := by
  cases n with
  | zero => exact absurd hn (Nat.lt_irrefl 0)
  | succ n => exact Nat.lt_of_le_of_lt (skipMany_le c.skip n) (skip_lt h)

theorem break?_lt {c d : Cursor} {x : Char} (h : c.break? = some (x, d)) : d.left < c.left := by
  unfold break? at h
  split at h
  · next r hr =>
    simp only [Option.some.injEq, Prod.mk.injEq] at h
    obtain ⟨_, rfl⟩ := h
    simp only [left, hr, List.length_cons]
    omega
  · next x r _ hr =>
    split at h
    · simp only [Option.some.injEq, Prod.mk.injEq] at h
      obtain ⟨_, rfl⟩ := h
      simp [left, hr]
    · simp at h
  · simp at h

end Cursor

end SheetPost.Yaml
