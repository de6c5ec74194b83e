/-
Address lists of mail headers as a reader takes them: mailboxes with commas between them, or a group of these. Signs in
quoted strings and in address literals do not count, and neither do commas in angle brackets. The name before an address
is a quoted string, or words, some of them encoded.
-/
import SheetPost.Mail.EncodedWord
import SheetPost.Mail.QuotedString

namespace SheetPost.Mail.AddressList

open SheetPost.Text

/-! ## Places -/

/-- what a reader is in the middle of -/
inductive Token where
  | free
  | quoted
  /-- behind a backslash in a quoted string -/
  | escaped
  /-- between the square brackets of an address literal -/
  | literal
deriving DecidableEq, Repr

/-- the token behind a character -/
def Token.next (t : Token) (c : Char) : Token :=
  match t with
  | .free => if c = '"' then .quoted else if c = '[' then .literal else .free
  | .quoted => if c = '\\' then .escaped else if c = '"' then .free else .quoted
  | .escaped => .quoted
  | .literal => if c = ']' then .free else .literal

/-- where a reader of a list is -/
structure Place where
  inAngle : Bool
  token : Token
deriving DecidableEq, Repr

namespace Place

/-- in no token and no angle -/
def outside : Place := ⟨false, .free⟩

/-- in an angle, and in no token there -/
def angle : Place := ⟨true, .free⟩

/-- the place behind a character -/
def next (p : Place) (c : Char) : Place where
  inAngle := if p.token = .free ∧ c = '<' then true else if p.token = .free ∧ c = '>' then false else p.inAngle
  token := p.token.next c

/-- the place behind a text -/
def run (p : Place) (s : List Char) : Place := s.foldl next p

end Place

/-! ## Cutting -/

/-- the text before and after the first `x` that stands at the place `here`, read from `p` on -/
def cutAtSign (x : Char) (here p : Place) : List Char → Option (List Char × List Char)
  | [] => none
  | c :: r => if p = here ∧ c = x then some ([], r) else (cutAtSign x here (p.next c) r).map fun (a, b) => (c :: a, b)

/-- the pieces between the commas outside -/
def pieces (p : Place) : List Char → List (List Char)
  | [] => [[]]
  | c :: r =>
    match decide (p = .outside ∧ c = ','), pieces (p.next c) r with
    | true, more => [] :: more
    | false, [] => [[c]]
    | false, piece :: more => (c :: piece) :: more

/-! ## Mailboxes -/

/-- a name, if there is one, and an address -/
abbrev Entry := Option (List Char) × List Char

/-- the name that stands before an address -/
def readName? (s : List Char) : Option (Option (List Char)) :=
  match trim s with
  | [] => some none
  | '"' :: r => (QuotedString.decode? ('"' :: r)).map some
  | s => some (some (EncodedWord.decodeText s))

/-- one mailbox, with no token or angle left open -/
def readMailbox? (s : List Char) : Option Entry :=
  if Place.outside.run s ≠ .outside then none
  else
    match cutAtSign '<' .outside .outside (trim s) with
    | none => some (none, trim s)
    | some (name, r) =>
      match cutAtSign '>' .angle .angle r with
      | some (addr, []) => (readName? name).map fun n => (n, addr)
      | _ => none

/-- mailboxes with commas between them -/
def readMailboxes? (s : List Char) : Option (List Entry) := (pieces .outside s).mapM readMailbox?

/-- the members of a group, up to the semicolon that ends it; there may be none -/
def readGroup? (s : List Char) : Option (List Entry) :=
  match s.getLast? with
  | some ';' => if s.dropLast.all isBlank then some [] else readMailboxes? s.dropLast
  | _ => none

/-- the mailboxes of an unfolded value; a name that a colon ends, and no address, begins a group -/
def read? (s : List Char) : Option (List Entry) :=
  match cutAtSign ':' .outside .outside s with
  | some (name, members) => if '@' ∈ name then readMailboxes? s else readGroup? members
  | none => readMailboxes? s

end SheetPost.Mail.AddressList
