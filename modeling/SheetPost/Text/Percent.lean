/-
Percent encoding: bytes outside a chosen set as `%` and two hexadecimal digits.

Main statement: an escape is read back, whatever follows it (`decode_escape`).
-/
import SheetPost.Text.Numeral

namespace SheetPost.Text.Percent

/-- a byte as `%` and two digits -/
def escape (b : UInt8) : List Char := '%' :: hexByte b

/-- bytes as text: those in the set as characters of their own, the others escaped -/
def encode (plain : UInt8 → Bool) (bytes : List UInt8) : List Char :=
  bytes.flatMap fun b => if plain b then [Char.ofNat b.toNat] else escape b

/-- the bytes of a text of ASCII; a percent sign without two digits behind it stands for itself -/
def decode : List Char → List UInt8
  | '%' :: a :: b :: r =>
    match digitValue? 16 a, digitValue? 16 b with
    | some x, some y => UInt8.ofNat (x * 16 + y) :: decode r
    | _, _ => 0x25 :: decode (a :: b :: r)
  | c :: r => UInt8.ofNat c.toNat :: decode r
  | [] => []

theorem digitValue?_hexDigit {n : Nat} (h : n < 16) : digitValue? 16 (hexDigit n) = some n := by
  have : ∀ m : Fin 16, digitValue? 16 (hexDigit m) = some m.val := by decide
  exact this ⟨n, h⟩

theorem decode_escape (b : UInt8) (s : List Char) : decode (escape b ++ s) = b :: decode s := by
  have hb := b.toNat_lt
  have h1 : b.toNat / 16 < 16 := by omega
  have h2 : b.toNat % 16 < 16 := by omega
  have e : UInt8.ofNat (b.toNat / 16 * 16 + b.toNat % 16) = b := by
    rw [show b.toNat / 16 * 16 + b.toNat % 16 = b.toNat by omega, UInt8.ofNat_toNat]
  simp [escape, hexByte, decode, digitValue?_hexDigit h1, digitValue?_hexDigit h2, e]

end SheetPost.Text.Percent
