/-
Hosts of URLs. With a special scheme a host is a domain name, brought to ASCII, or an IPv4 address in any of its
spellings; with another scheme it is any text without separators. With either it may be an IPv6 address in brackets.
-/
import SheetPost.Net.DomainName
import SheetPost.Net.Ip
import SheetPost.Text.Percent
import SheetPost.Text.Utf8

namespace SheetPost.Url

open SheetPost.Text

/-! ## Which bytes are escaped where -/

/-- one of the ASCII characters -/
def isOneOf (chars : String) (b : UInt8) : Bool := chars.toList.any fun c => c.toNat == b.toNat

/-- a control character or a byte beyond ASCII -/
def isControl (b : UInt8) : Bool := b < 0x20 || 0x7F ≤ b

/-- bytes that a fragment cannot hold -/
def isOutsideFragment (b : UInt8) : Bool := isControl b || isOneOf " \"<>\x60" b

/-- bytes that a path cannot hold -/
def isOutsidePath (b : UInt8) : Bool := isOutsideFragment b || isOneOf "#?\x7b\x7d" b

/-- bytes that a user name or password cannot hold -/
def isOutsideUserinfo (b : UInt8) : Bool := isOutsidePath b || isOneOf "/:;=@[\\]^|" b

/-- bytes that a query cannot hold -/
def isOutsideQuery (special : Bool) (b : UInt8) : Bool :=
  isControl b || isOneOf " \"#<>" b || (special && isOneOf "'" b)

/-- a text with the bytes in `outside` escaped -/
def escape (outside : UInt8 → Bool) (s : List Char) : List Char :=
  Percent.encode (fun b => !outside b) (Utf8.encode s)

/-! ## Hosts -/

/-- a host as a URL shows it -/
inductive Host where
  | name (s : List Char)
  | ipv4 (octets : List Nat)
  | ipv6 (groups : Net.Groups)
deriving DecidableEq, Repr

namespace Host

/-- the host in a URL -/
def text : Host → List Char
  | .name s => s
  | .ipv4 octets => Net.writeIpv4 octets
  | .ipv6 groups => '[' :: (Net.writeIpv6 groups ++ [']'])

/-- an address in brackets -/
def readBracketed? (s : List Char) : Option Host :=
  if s.length ≥ 2 && s.getLast? == some ']' then (Net.readIpv6? s.tail.dropLast).map .ipv6 else none

/-- characters that end a host or cannot be in one -/
def isSeparator (c : Char) : Bool :=
  ['\x00', '\t', '\n', '\r', ' ', '#', '/', ':', '<', '>', '?', '@', '[', '\\', ']', '^', '|'].contains c

/-- the host of a URL whose scheme is not special -/
def readOpaque? (s : List Char) : Option Host :=
  if s.head? == some '[' then readBracketed? s
  else if s.any isSeparator then none
  else some (.name (escape isControl s))

/-- characters that no domain name holds -/
def isForbidden (c : Char) : Bool :=
  c.toNat ≤ 0x20 || c.toNat == 0x7F ||
    ['%', '#', '/', ':', '<', '>', '?', '@', '[', '\\', ']', '^', '|'].contains c

/-- one number of an IPv4 address: decimal, octal behind `0`, hexadecimal behind `0x` -/
def readNumber? (s : List Char) : Option Nat :=
  match s with
  | [] => none
  | '0' :: 'x' :: r | '0' :: 'X' :: r => if r.isEmpty then some 0 else readDigits? 16 r
  | '0' :: d :: r => readDigits? 8 (d :: r)
  | s => readDigits? 10 s

/-- the parts between dots, without an empty one at the end -/
def dotParts (s : List Char) : List (List Char) :=
  let parts := split (· == '.') s
  if parts.length > 1 && parts.getLast? == some [] then parts.dropLast else parts

/-- the last part is a number, so the name must be an IPv4 address -/
def endsInNumber (s : List Char) : Bool :=
  match (dotParts s).getLast? with
  | some last => (!last.isEmpty && last.all Char.isDigit) || (readNumber? last).isSome
  | none => false

/-- up to four numbers, the last of which fills the bytes that the others leave -/
def readIpv4? (s : List Char) : Option Host :=
  match ((dotParts s).mapM readNumber?).map List.reverse with
  | some (last :: others) =>
    let n := others.length
    if n > 3 || others.any (· > 255) || last ≥ Nat.pow 256 (4 - n) then none
    else
      let tail := (List.range (4 - n)).map fun i => last / Nat.pow 256 (3 - n - i) % 256
      some (.ipv4 (others.reverse ++ tail))
  | _ => none

/-- the host of a URL with a special scheme -/
def readSpecial? (s : List Char) : Option Host :=
  if s.head? == some '[' then readBracketed? s
  else
    match (Utf8.decode? (Percent.decode (escape (0x7F < ·) s))).bind Net.DomainName.toAscii? with
    | none => none
    | some ascii =>
      let domain := ascii.map Char.toLower
      if domain.isEmpty || domain.any isForbidden then none
      else if endsInNumber domain then readIpv4? domain
      else some (.name domain)

end Host

end SheetPost.Url
