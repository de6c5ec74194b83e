/-
Numeric network addresses: four numbers with dots (IPv4), eight groups of hexadecimal digits with colons (IPv6), where
`::` stands for groups of zeros, and the shortest form of the latter.
-/
import SheetPost.Text.Blank
import SheetPost.Text.Numeral

namespace SheetPost.Net

open SheetPost.Text

/-- one of the four numbers: up to three digits, none of them a zero in front, at most 255 -/
def readOctet? (s : List Char) : Option Nat :=
  if s.length > 3 || (s.length > 1 && s.head? == some '0') then none
  else (readDigits? 10 s).filter (· ≤ 255)

/-- the four numbers of an IPv4 address -/
def readIpv4? (s : List Char) : Option (List Nat) :=
  let parts := split (· == '.') s
  if parts.length = 4 then parts.mapM readOctet? else none

/-- the groups of an IPv6 address -/
abbrev Groups := List Nat

/-- one group: up to four hexadecimal digits -/
def readGroup? (s : List Char) : Option Nat :=
  if s.length > 4 then none else readDigits? 16 s

/-- groups between colons; the last two may be written as an IPv4 address where `withIpv4` says so -/
def readGroups? (withIpv4 : Bool) : List (List Char) → Option Groups
  | [] => some []
  | [s] =>
    if withIpv4 && s.contains '.' then
      match readIpv4? s with
      | some [a, b, c, d] => some [a * 256 + b, c * 256 + d]
      | _ => none
    else (readGroup? s).map ([·])
  | s :: r =>
    match readGroup? s, readGroups? withIpv4 r with
    | some g, some gs => some (g :: gs)
    | _, _ => none

/-- the text before and after the first `::` -/
def cutAtDoubleColon : List Char → Option (List Char × List Char)
  | ':' :: ':' :: r => some ([], r)
  | c :: r => (cutAtDoubleColon r).map fun (a, b) => (c :: a, b)
  | [] => none

/-- the groups of a text that may be empty -/
def readSide? (withIpv4 : Bool) (s : List Char) : Option Groups :=
  if s.isEmpty then some [] else readGroups? withIpv4 (split (· == ':') s)

/-- the eight groups of an IPv6 address -/
def readIpv6? (s : List Char) : Option Groups :=
  match cutAtDoubleColon s with
  | none => (readSide? true s).filter (·.length = 8)
  | some (a, b) =>
    match readSide? false a, readSide? true b with
    | some head, some tail =>
      if head.length + tail.length ≤ 7 then
        some (head ++ (List.replicate (8 - (head.length + tail.length)) 0 ++ tail))
      else none
    | _, _ => none

/-- how many zeros the groups begin with -/
def leadingZeros (gs : Groups) : Nat := (gs.takeWhile (· == 0)).length

/-- where the longest run of at least two zeros begins, and its length: the first of several -/
def zeroRun (gs : Groups) : Option (Nat × Nat) :=
  (List.range gs.length).foldl (fun best i =>
    let n := leadingZeros (gs.drop i)
    if n ≥ 2 && (best.map (·.2)).getD 1 < n then some (i, n) else best) none

/-- groups with colons between them -/
def writeGroups (gs : Groups) : List Char := join [':'] (gs.map (Nat.toDigits 16))

/-- the shortest text of an IPv6 address -/
def writeIpv6 (gs : Groups) : List Char :=
  match zeroRun gs with
  | none => writeGroups gs
  | some (i, n) => writeGroups (gs.take i) ++ (':' :: ':' :: writeGroups (gs.drop (i + n)))

/-- the text of an IPv4 address -/
def writeIpv4 (octets : List Nat) : List Char := join ['.'] (octets.map decimal)

end SheetPost.Net
