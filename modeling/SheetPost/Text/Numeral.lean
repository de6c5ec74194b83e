/-
Numbers written in digits: printing a `Nat` in decimal or hexadecimal, and reading unsigned numerals with a limit.

Main statement: what is printed in a base up to 16 is read back (`readDigits?_toDigits`).
-/

namespace SheetPost.Text

/-- the decimal digits of `n` -/
def decimal (n : Nat) : List Char := Nat.toDigits 10 n

/-- decimal digits with zeros in front up to `width` -/
def decimalPadded (width n : Nat) : List Char :=
  let digits := decimal n
  List.replicate (width - digits.length) '0' ++ digits

/-- one hexadecimal digit, upper case -/
def hexDigit (n : Nat) : Char :=
  if n < 10 then Char.ofNat (0x30 + n) else Char.ofNat (0x41 + (n - 10))

/-- two hexadecimal digits, upper case -/
def hexByte (b : UInt8) : List Char := [hexDigit (b.toNat / 16), hexDigit (b.toNat % 16)]

/-- the value of a digit in a base up to 36, letters of either case -/
def digitValue? (base : Nat) (c : Char) : Option Nat :=
  let n := c.toNat
  let v :=
    if 0x30 ≤ n ∧ n ≤ 0x39 then n - 0x30
    else if 0x61 ≤ n ∧ n ≤ 0x7A then n - 0x61 + 10
    else if 0x41 ≤ n ∧ n ≤ 0x5A then n - 0x41 + 10
    else base
  if v < base then some v else none

/-- the number that the digits write behind `acc` -/
def readDigitsFrom? (base : Nat) : Nat → List Char → Option Nat
  | acc, [] => some acc
  | acc, c :: r => (digitValue? base c).bind fun v => readDigitsFrom? base (acc * base + v) r

/-- the number of a non-empty run of digits and nothing else -/
def readDigits? (base : Nat) (s : List Char) : Option Nat :=
  if s.isEmpty then none else readDigitsFrom? base 0 s

/-- a number from 0 to `limit` in digits, with a plus sign in front or without -/
def readUnsigned? (base limit : Nat) (s : List Char) : Option Nat :=
  let digits := match s with
    | '+' :: r => r
    | s => s
  (readDigits? base digits).filter (· ≤ limit)

/-! ## Reading back -/

theorem digitValue?_digitChar {base d : Nat} (hbase : base ≤ 16) (h : d < base) :
    digitValue? base (Nat.digitChar d) = some d := by
  have : ∀ b : Fin 17, ∀ m : Fin b, digitValue? b (Nat.digitChar m) = some m.val := by decide
  exact this ⟨base, by omega⟩ ⟨d, h⟩

theorem readDigitsFrom?_append (base acc : Nat) (s t : List Char) :
    readDigitsFrom? base acc (s ++ t) = (readDigitsFrom? base acc s).bind fun n => readDigitsFrom? base n t := by
  induction s generalizing acc with
  | nil => rfl
  | cons c r ih =>
    cases h : digitValue? base c with
    | none => simp [readDigitsFrom?, h]
    | some v => simp [readDigitsFrom?, h, ih]

section Base

variable {base : Nat} (hpos : 1 < base) (hbase : base ≤ 16)
include hpos

theorem toDigits_step {n : Nat} (h : base ≤ n) :
    Nat.toDigits base n = Nat.toDigits base (n / base) ++ Nat.toDigits base (n % base) := by
  have := Nat.toDigits_append_toDigits hpos (Nat.div_pos h (by omega)) (Nat.mod_lt n (by omega))
  rw [this, Nat.div_add_mod]

include hbase

theorem readDigitsFrom?_toDigits (n : Nat) : readDigitsFrom? base 0 (Nat.toDigits base n) = some n := by
  induction n using Nat.strongRecOn with
  | _ n ih =>
    by_cases h : n < base
    · simp [Nat.toDigits_of_lt_base h, readDigitsFrom?, digitValue?_digitChar hbase h]
    · have hd : n % base < base := Nat.mod_lt _ (by omega)
      rw [toDigits_step hpos (by omega), readDigitsFrom?_append, ih (n / base) (Nat.div_lt_self (by omega) hpos),
        Option.bind_some]
      simp only [Nat.toDigits_of_lt_base hd, readDigitsFrom?, digitValue?_digitChar hbase hd, Option.bind_some]
      rw [Nat.mul_comm, Nat.div_add_mod]

theorem readDigits?_toDigits (n : Nat) : readDigits? base (Nat.toDigits base n) = some n := by
  have : (Nat.toDigits base n).isEmpty = false := by simp [Nat.toDigits_ne_nil]
  simp [readDigits?, this, readDigitsFrom?_toDigits hpos hbase]

end Base

theorem decimal_ne_nil (n : Nat) : decimal n ≠ [] := Nat.toDigits_ne_nil

theorem readDigits?_decimal (n : Nat) : readDigits? 10 (decimal n) = some n :=
  readDigits?_toDigits (by decide) (by decide) n

end SheetPost.Text
