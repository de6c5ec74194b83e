/-
Base64: three bytes as four digits of six bits, with `=` for the missing ones at the end, and the form used in mail,
where the digits stand in lines of 76.

Main statement: what is encoded is read back (`decode?_encode`).
-/
import SheetPost.Mail.Lines

namespace SheetPost.Mail.Base64

/-- the digit of six bits -/
def digit (n : Nat) : Char :=
  if n < 26 then Char.ofNat (0x41 + n)
  else if n < 52 then Char.ofNat (0x61 + (n - 26))
  else if n < 62 then Char.ofNat (0x30 + (n - 52))
  else if n = 62 then '+' else '/'

/-- the six bits of a digit -/
def value? (c : Char) : Option Nat :=
  let n := c.toNat
  if 0x41 ≤ n ∧ n ≤ 0x5A then some (n - 0x41)
  else if 0x61 ≤ n ∧ n ≤ 0x7A then some (n - 0x61 + 26)
  else if 0x30 ≤ n ∧ n ≤ 0x39 then some (n - 0x30 + 52)
  else if c = '+' then some 62
  else if c = '/' then some 63
  else none

/-- the digits of some bytes, in groups of four -/
def encode : List UInt8 → List Char
  | [] => []
  | [a] => [digit (a.toNat / 4), digit (a.toNat % 4 * 16), '=', '=']
  | [a, b] =>
    [digit (a.toNat / 4), digit (a.toNat % 4 * 16 + b.toNat / 16), digit (b.toNat % 16 * 4), '=']
  | a :: b :: c :: r =>
    digit (a.toNat / 4) :: digit (a.toNat % 4 * 16 + b.toNat / 16) ::
      digit (b.toNat % 16 * 4 + c.toNat / 64) :: digit (c.toNat % 64) :: encode r

/-- a byte from the low end of one digit and the high end of the next -/
def byteOf (n : Nat) : UInt8 := UInt8.ofNat n

/-- the bytes of digits in groups of four: padding stands only in the last group, over bits that are zero -/
def decode? : List Char → Option (List UInt8)
  | [] => some []
  | [a, b, '=', '='] =>
    match value? a, value? b with
    | some x, some y => if y % 16 = 0 then some [byteOf (x * 4 + y / 16)] else none
    | _, _ => none
  | [a, b, c, '='] =>
    match value? a, value? b, value? c with
    | some x, some y, some z =>
      if z % 4 = 0 then some [byteOf (x * 4 + y / 16), byteOf (y % 16 * 16 + z / 4)] else none
    | _, _, _ => none
  | a :: b :: c :: d :: r =>
    match value? a, value? b, value? c, value? d, decode? r with
    | some x, some y, some z, some w, some rest =>
      some (byteOf (x * 4 + y / 16) :: byteOf (y % 16 * 16 + z / 4) :: byteOf (z % 4 * 64 + w) :: rest)
    | _, _, _, _, _ => none
  | _ => none

/-- the most characters in a line -/
def lineWidth : Nat := 76

/-- a text in pieces of `n + 1` characters, the last one shorter if it must be -/
def pieces (n : Nat) : List Char → List (List Char)
  | [] => []
  | c :: r => (c :: r.take n) :: pieces n (r.drop n)
termination_by s => s.length
decreasing_by simp only [List.length_drop, List.length_cons]; omega

/-- the digits of some bytes in lines, each of them closed by a line break -/
def wrapped (bytes : List UInt8) : List Char :=
  (pieces (lineWidth - 1) (encode bytes)).flatMap (· ++ crlf)

theorem value?_digit {n : Nat} (h : n < 64) : value? (digit n) = some n := by
  have : ∀ m : Fin 64, value? (digit m) = some m.val := by decide
  exact this ⟨n, h⟩

theorem digit_ne_pad {n : Nat} (h : n < 64) : digit n ≠ '=' := by
  have : ∀ m : Fin 64, digit m ≠ '=' := by decide
  exact this ⟨n, h⟩

theorem byteOf_eq {n : Nat} {b : UInt8} (h : n = b.toNat) : byteOf n = b := by simp [byteOf, h]

theorem decode?_encode (bytes : List UInt8) : decode? (encode bytes) = some bytes := by
  fun_induction encode bytes with
  | case1 => rfl
  | case2 a =>
    have ha := a.toNat_lt
    have h1 : a.toNat / 4 < 64 := by omega
    have h2 : a.toNat % 4 * 16 < 64 := by omega
    simp only [decode?, value?_digit h1, value?_digit h2]
    rw [if_pos (by omega), byteOf_eq (b := a) (by omega)]
  | case3 a b =>
    have ha := a.toNat_lt
    have hb := b.toNat_lt
    have h1 : a.toNat / 4 < 64 := by omega
    have h2 : a.toNat % 4 * 16 + b.toNat / 16 < 64 := by omega
    have h3 : b.toNat % 16 * 4 < 64 := by omega
    have hp := digit_ne_pad h3
    rw [decode?.eq_3 _ _ _ (by simpa using hp)]
    simp only [value?_digit h1, value?_digit h2, value?_digit h3]
    rw [if_pos (by omega), byteOf_eq (b := a) (by omega), byteOf_eq (b := b) (by omega)]
  | case4 a b c r ih =>
    have ha := a.toNat_lt
    have hb := b.toNat_lt
    have hc := c.toNat_lt
    have h1 : a.toNat / 4 < 64 := by omega
    have h2 : a.toNat % 4 * 16 + b.toNat / 16 < 64 := by omega
    have h3 : b.toNat % 16 * 4 + c.toNat / 64 < 64 := by omega
    have h4 : c.toNat % 64 < 64 := by omega
    have hp := digit_ne_pad h4
    rw [decode?.eq_4 _ _ _ _ _ (by simp [hp]) (by simp [hp])]
    simp only [value?_digit h1, value?_digit h2, value?_digit h3, value?_digit h4, ih]
    rw [byteOf_eq (b := a) (by omega), byteOf_eq (b := b) (by omega), byteOf_eq (b := c) (by omega)]

end SheetPost.Mail.Base64
