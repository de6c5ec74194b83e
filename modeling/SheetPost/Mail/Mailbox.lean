/-
Mailboxes as a user writes them, `addr` or `Name <addr>`, and as a message shows them: the name as a quoted string or as
encoded words, the address untouched.
-/
import SheetPost.Mail.Address
import SheetPost.Mail.EncodedWord
import SheetPost.Mail.QuotedString

namespace SheetPost.Mail

open SheetPost.Text

/-- an address with the name of its owner, which may be empty -/
structure Mailbox where
  name : List Char
  address : Address
deriving DecidableEq, Repr

namespace Mailbox

/-- a name without blanks at its ends, then without double quotes, then without blanks again -/
def bareName (s : List Char) : List Char := trim (trimWhile (· == '"') (trim s))

/-- name and address of a text without blanks at its ends: the last `<` opens the address if `>` ends the text -/
def parts (s : List Char) : List Char × List Char :=
  if s.getLast? == some '>' then
    match cutAtLast '<' s.dropLast with
    | some (name, addr) => (bareName name, trim addr)
    | none => ([], s)
  else ([], s)

/-- the mailbox that a text is -/
def parse (s : List Char) : Except AddressError Mailbox :=
  let (name, addr) := parts (trim s)
  (Address.parse addr).map fun a => ⟨name, a⟩

/-- the mailbox as written into a header -/
def render (m : Mailbox) : List Char :=
  let addr := m.address.text
  if m.name.isEmpty then addr
  else if isAscii m.name then QuotedString.encode m.name ++ (' ' :: '<' :: (addr ++ ['>']))
  else EncodedWord.encode m.name ++ (' ' :: '<' :: (addr ++ ['>']))

end Mailbox

end SheetPost.Mail
