/-
Mail addresses `user@domain`: which texts are one, and why another is not.

The user is a dot-separated list of atoms or a quoted string; the domain a list of labels, an address literal in
brackets or a plain IP address, and a domain in another script is valid if its ASCII form is.
-/
import SheetPost.Net.DomainName
import SheetPost.Net.Ip
import SheetPost.Text.Letter
import SheetPost.Text.Utf8

namespace SheetPost.Mail

open SheetPost.Text

/-- an address in its two parts -/
structure Address where
  user : List Char
  domain : List Char
deriving DecidableEq, Repr

/-- why a text is not an address -/
inductive AddressError where
  | missingParts
  | invalidUser
  | invalidDomain
deriving DecidableEq, Repr

namespace AddressError

/-- the wording of the cause -/
def message : AddressError → String
  | .missingParts => "Missing domain or user"
  | .invalidUser => "Invalid email user"
  | .invalidDomain => "Invalid email domain"

end AddressError

namespace Address

/-- the text of an address -/
def text (a : Address) : List Char := a.user ++ '@' :: a.domain

/-! ## Characters -/

/-- code points that, read as two bytes, are a sequence of two in UTF-8: any address may hold them -/
def isWide (c : Char) : Bool :=
  let n := c.toNat
  0xC2 ≤ n / 256 && n / 256 ≤ 0xDF && 0x80 ≤ n % 256 && n % 256 ≤ 0xBF

/-- a character of an atom -/
def isAtomChar (c : Char) : Bool :=
  isLetterOrNumber c || "!#$%&'*+-/=?^_\x60\x7b|\x7d~".toList.contains c || isWide c

/-- a character of a quoted user that needs no backslash -/
def isQuotedChar (c : Char) : Bool :=
  let n := c.toNat
  n == 0x20 || n == 0x09 || n == 0x21 || (0x23 ≤ n && n ≤ 0x5B) || (0x5D ≤ n && n ≤ 0x7E) || isWide c

/-- a character of an address literal -/
def isLiteralChar (c : Char) : Bool :=
  let n := c.toNat
  (0x21 ≤ n && n ≤ 0x5A) || (0x5E ≤ n && n ≤ 0x7E) || isWide c

/-! ## Users -/

/-- what stands between the quotes of a quoted user: a backslash goes with the visible character behind it -/
def isQuotedBody : List Char → Bool
  | [] => true
  | '\\' :: c :: r => 0x21 ≤ c.toNat && c.toNat ≤ 0x7E && isQuotedBody r
  | c :: r => isQuotedChar c && isQuotedBody r

/-- atoms with dots between them -/
def isDotAtom (s : List Char) : Bool :=
  (split (· == '.') s).all fun atom => !atom.isEmpty && atom.all isAtomChar

/-- the most bytes of a user -/
def maxUser : Nat := 64

/-- the text is a user -/
def isUser (s : List Char) : Bool :=
  Utf8.length s ≤ maxUser &&
    (if s.head? == some '"' && s.getLast? == some '"' then
      s.length > 2 && isQuotedBody s.tail.dropLast
    else isDotAtom s)

/-! ## Domains -/

/-- the most bytes of a domain, and of a label in it -/
def maxDomain : Nat := 254

/-- the most bytes of a label -/
def maxLabel : Nat := 63

/-- one label: a letter or number at either end -/
def isLabel (s : List Char) : Bool :=
  match s.head?, s.getLast? with
  | some a, some z =>
    Utf8.length s ≤ maxLabel && isLetterOrNumber a && isLetterOrNumber z && s.all isAtomChar
  | _, _ => false

/-- an address literal without its brackets, if the text is in brackets -/
def bracketed? (s : List Char) : Option (List Char) :=
  if s.length ≥ 2 && s.head? == some '[' && s.getLast? == some ']' then some s.tail.dropLast else none

/-- a domain as it stands: labels, a literal, or an IP address -/
def isPlainDomain (s : List Char) : Bool :=
  let named := !s.isEmpty && Utf8.length s ≤ maxDomain &&
    match bracketed? s with
    | some literal => literal.all isLiteralChar
    | none => (split (· == '.') s).all isLabel
  let ip := (bracketed? s).getD s
  named || (Net.readIpv4? ip).isSome || (Net.readIpv6? ip).isSome

/-- a domain, as it stands or in its ASCII form -/
def isDomain (s : List Char) : Bool :=
  isPlainDomain s || ((Net.DomainName.toAscii? s).map isPlainDomain).getD false

/-! ## Addresses -/

/-- the address that a text is; the last `@` divides it, and a fault of the user wins over one of the domain -/
def parse (s : List Char) : Except AddressError Address :=
  match cutAtLast '@' s with
  | none => .error .missingParts
  | some (user, domain) =>
    if !isUser user then .error .invalidUser
    else if !isDomain domain then .error .invalidDomain
    else .ok ⟨user, domain⟩

theorem cutAtLast_eq_some {x : Char} {s a b : List Char} (h : cutAtLast x s = some (a, b)) : s = a ++ x :: b := by
  obtain ⟨⟨p, q⟩, hr, he⟩ := Option.map_eq_some_iff.1 h
  simp only [Prod.mk.injEq] at he
  obtain ⟨rfl, rfl⟩ := he
  have hs := congrArg List.reverse (cutAt_eq_some hr).1
  simpa using hs

/-- an accepted text is the text of its address -/
theorem text_of_parse {s : List Char} {a : Address} (h : parse s = .ok a) : a.text = s := by
  simp only [parse] at h
  split at h
  · simp at h
  · next user domain hc =>
    split at h
    · simp at h
    · split at h
      · simp at h
      · simp only [Except.ok.injEq] at h
        subst h
        exact (cutAtLast_eq_some hc).symm

end Address

end SheetPost.Mail
