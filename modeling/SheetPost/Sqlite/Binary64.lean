/-
Binary floating-point numbers of 64 bits, as a significand times a power of two, in exact arithmetic: the number nearest
to a decimal one, and the text of a number with fifteen digits.
-/
import SheetPost.Text.Numeral

namespace SheetPost.Sqlite

open SheetPost.Text

/-- a number `significand * 2 ^ exponent` with a sign, or a number too large for that -/
inductive Binary64 where
  | finite (negative : Bool) (significand : Nat) (exponent : Int)
  | infinite (negative : Bool)
deriving DecidableEq, Repr

namespace Binary64

/-! ## Rounding -/

/-- the bits of a significand -/
def precision : Nat := 53

/-- the least exponent of a significand -/
def minExponent : Int := -1074

/-- numbers from two to this power on are too large -/
def maxPower : Nat := 1024

/-- a quotient times a power of two, as a quotient -/
def scale (num den : Nat) (power : Int) : Nat × Nat :=
  if 0 ≤ power then (num * Nat.pow 2 power.toNat, den) else (num, den * Nat.pow 2 (-power).toNat)

/-- the nearest whole number, the even one of two -/
def roundToEven (num den : Nat) : Nat :=
  let q := num / den
  let twice := 2 * (num % den)
  if twice < den || (twice == den && q % 2 == 0) then q else q + 1

/-- the power of two that a positive quotient lies at or above, but below the next one -/
def power (num den : Nat) : Int :=
  let p : Int := (Nat.log2 num : Int) - Nat.log2 den
  let (n, d) := scale num den (-p)
  if n < d then p - 1 else p

/-- the number nearest to a positive quotient -/
def ofQuotient (negative : Bool) (num den : Nat) : Binary64 :=
  let exponent := max (power num den - (precision - 1)) minExponent
  let (n, d) := scale num den (-exponent)
  let significand := roundToEven n d
  if 0 < exponent && Nat.pow 2 maxPower ≤ significand * Nat.pow 2 exponent.toNat then .infinite negative
  else .finite negative significand exponent

/-- zero -/
def zero (negative : Bool) : Binary64 := .finite negative 0 0

/-- decimal exponents beyond which everything is zero or too large -/
def farExponent : Int := 400

/-- the number nearest to `digits * 10 ^ exponent` -/
def ofDecimal (negative : Bool) (digits : Nat) (exponent : Int) : Binary64 :=
  if digits = 0 then zero negative
  else if farExponent < exponent then .infinite negative
  else if exponent + (decimal digits).length < -farExponent then zero negative
  else if 0 ≤ exponent then ofQuotient negative (digits * Nat.pow 10 exponent.toNat) 1
  else ofQuotient negative digits (Nat.pow 10 (-exponent).toNat)

/-- the number nearest to a whole number -/
def ofInt (n : Int) : Binary64 := ofDecimal (decide (n < 0)) n.natAbs 0

/-! ## Whole numbers -/

/-- the largest number below 2^63 -/
def maxWhole : Nat := 9223372036854774784

/-- the whole number that a number is, if it is one well within 64 bits -/
def toInt? : Binary64 → Option Int
  | .infinite _ => none
  | .finite negative significand exponent =>
    let (n, d) := scale significand 1 exponent
    if n % d = 0 && n / d ≤ maxWhole then some (if negative then -((n / d : Nat) : Int) else (n / d : Nat)) else none

/-! ## Text -/

/-- the digits that are written -/
def shownDigits : Nat := 15

/-- the power of ten that a positive quotient lies at or above, but below the next one -/
def decimalPower (num den : Nat) : Int :=
  let p : Int := (decimal num).length - (decimal den).length
  let atLeast := if 0 ≤ p then den * Nat.pow 10 p.toNat ≤ num else den ≤ num * Nat.pow 10 (-p).toNat
  if atLeast then p else p - 1

/-- fifteen digits of a positive quotient, a half rounded up, and the power of ten of the first -/
def digits (num den : Nat) : List Char × Int :=
  let p := decimalPower num den
  let places : Int := shownDigits - 1 - p
  let (n, d) := if 0 ≤ places then (num * Nat.pow 10 places.toNat, den) else (num, den * Nat.pow 10 (-places).toNat)
  let rounded := (2 * n + d) / (2 * d)
  if rounded = Nat.pow 10 shownDigits then (decimal (Nat.pow 10 (shownDigits - 1)), p + 1) else (decimal rounded, p)

/-- the fraction without zeros at its end, but never without a digit -/
def fraction (s : List Char) : List Char :=
  let s := (s.reverse.dropWhile (· == '0')).reverse
  if s.isEmpty then ['0'] else s

/-- a power of ten behind a number -/
def exponentText (p : Int) : List Char :=
  'e' :: (if p < 0 then '-' else '+') :: decimalPadded 2 p.natAbs

/-- digits with their point; far from one the power of ten is written behind them -/
def place (digits : List Char) (p : Int) : List Char :=
  if p < -4 || (shownDigits : Int) ≤ p then
    digits.take 1 ++ '.' :: (fraction (digits.drop 1) ++ exponentText p)
  else if p < 0 then
    '0' :: '.' :: fraction (List.replicate (-p - 1).toNat '0' ++ digits)
  else
    digits.take (p.toNat + 1) ++ '.' :: fraction (digits.drop (p.toNat + 1))

/-- the text of a number; zero has no sign -/
def text : Binary64 → List Char
  | .infinite negative => if negative then "-Inf".toList else "Inf".toList
  | .finite negative significand exponent =>
    if significand = 0 then "0.0".toList
    else
      let (n, d) := scale significand 1 exponent
      let (digits, p) := digits n d
      if negative then '-' :: place digits p else place digits p

end Binary64

end SheetPost.Sqlite
