/-
Values of SQLite: what a column makes of a value that is put into it, and how a stored value is given out. A column
prefers a kind of value by its declared type, but any value can be stored in any column.
-/
import SheetPost.Relation.Reading
import SheetPost.Sqlite.Binary64
import SheetPost.Text.Search
import SheetPost.Text.Utf8

namespace SheetPost.Sqlite

open SheetPost.Text

/-- a value -/
inductive Value where
  | null
  | int (n : Int)
  | real (x : Binary64)
  | text (s : String)
  | blob (bytes : List UInt8)
deriving DecidableEq, Repr

/-! ## Affinity -/

/-- the kind of value that a column prefers -/
inductive Affinity where
  | integer
  | text
  | none
  | real
  | numeric
deriving DecidableEq, Repr

/-- the affinity of a declared type: the first word found in it decides -/
def Affinity.ofType (declared : String) : Affinity :=
  let s := declared.toList.map Char.toUpper
  let holds (word : String) : Bool := occursIn word.toList s
  if holds "INT" then .integer
  else if holds "CHAR" || holds "CLOB" || holds "TEXT" then .text
  else if holds "BLOB" || s.isEmpty then .none
  else if holds "REAL" || holds "FLOA" || holds "DOUB" then .real
  else .numeric

/-! ## Numbers in texts -/

/-- blanks around a number -/
def isSpace (c : Char) : Bool := c == ' ' || (0x09 ≤ c.toNat && c.toNat ≤ 0x0D)

/-- a sign, and what follows it -/
def cutSign : List Char → Bool × List Char
  | '-' :: r => (true, r)
  | '+' :: r => (false, r)
  | s => (false, s)

/-- a significand from here on takes no more digits -/
def fullSignificand : Nat := 1844674407370955160

/-- the significand after more digits, and the digits that it does not take -/
def takeDigits (significand : Nat) : List Char → Nat × List Char
  | [] => (significand, [])
  | c :: r =>
    if significand < fullSignificand then takeDigits (significand * 10 + (digitValue? 10 c).getD 0) r
    else (significand, c :: r)

/-- the nearest number that digits around a point write; digits that the significand does not take count as zeros -/
def nearest (negative : Bool) (whole fraction : List Char) (exponent : Int) : Binary64 :=
  let (significand, dropped) := takeDigits 0 whole
  let (significand, unused) := takeDigits significand fraction
  .ofDecimal negative significand (exponent + dropped.length - (fraction.length - unused.length))

/-- an exponent and nothing else; none at all is zero -/
def readExponent? : List Char → Option Int
  | [] => some 0
  | c :: r =>
    if c == 'e' || c == 'E' then
      let (negative, digits) := cutSign r
      (readDigits? 10 digits).map fun n => if negative then -(n : Int) else n
    else none

/-- a whole number that 64 bits can hold -/
def isStorable (n : Int) : Bool := -9223372036854775808 ≤ n && n ≤ 9223372036854775807

/-- the number that a text is, with blanks around it: a whole number if it is written as one and can be stored -/
def readNumber? (s : List Char) : Option Value :=
  let (negative, s) := cutSign (trimWhile isSpace s)
  let (whole, rest) := s.span Char.isDigit
  let (fraction, rest, plain) := match rest with
    | '.' :: r => (r.takeWhile Char.isDigit, r.dropWhile Char.isDigit, false)
    | r => ([], r, r.isEmpty)
  let digits := (readDigits? 10 whole).getD 0
  let signed : Int := if negative then -(digits : Int) else digits
  if whole.isEmpty && fraction.isEmpty then none
  else if plain && isStorable signed then some (.int signed)
  else (readExponent? rest).map fun e => .real (nearest negative whole fraction e)

/-! ## Storing -/

/-- a real number as a whole number, if it is one -/
def compact (x : Binary64) : Value :=
  match x.toInt? with
  | some n => .int n
  | none => .real x

/-- the text of a whole number -/
def intText (n : Int) : List Char := if n < 0 then '-' :: decimal n.natAbs else decimal n.natAbs

/-- what a column that prefers numbers makes of a value -/
def toNumber : Value → Value
  | .real x => compact x
  | .text s =>
    match readNumber? s.toList with
    | some (.real x) => compact x
    | some v => v
    | none => .text s
  | v => v

/-- what a column makes of a value -/
def Affinity.store (a : Affinity) (v : Value) : Value :=
  match a with
  | .none => v
  | .text =>
    match v with
    | .int n => .text (String.ofList (intText n))
    | .real x => .text (String.ofList x.text)
    | v => v
  | .integer | .real | .numeric => toNumber v

/-! ## Reading -/

/-- the stored value as the column shows it: a column of reals shows whole numbers as reals -/
def Affinity.shown (a : Affinity) (v : Value) : Value :=
  match a, v with
  | .real, .int n => .real (.ofInt n)
  | _, v => v

/-- the bytes of a value: a number is given out as its text -/
def Value.bytes : Value → List UInt8
  | .null => []
  | .int n => Utf8.encode (intText n)
  | .real x => Utf8.encode x.text
  | .text s => Utf8.encode s.toList
  | .blob bytes => bytes

/-- the value as it is given out: any bytes that are UTF-8 may be had as text -/
def Value.fetched (v : Value) : Relation.Cell where
  isNull := v == .null
  text? := Utf8.decode? v.bytes
  bytes? := some v.bytes

end SheetPost.Sqlite
