/-
Envelopes: the two addresses that a mail server is told, apart from what the message itself shows. Both are read before
anything is sent, the sender first.
-/
import SheetPost.Mail.Address
import SheetPost.Text.Quoted

namespace SheetPost.Mail

open SheetPost.Text

/-- why a message was not sent -/
inductive SendError where
  | address (text : String) (cause : AddressError)
  /-- the mail server did not take it -/
  | server
deriving DecidableEq, Repr

namespace SendError

/-- the wording of the cause -/
def message : SendError → String
  | .address text cause => "invalid address " ++ quoted text ++ ": " ++ cause.message
  | .server => "smtp error"

/-- the wordings from the error down to its first cause -/
def trail (e : SendError) : List String :=
  e.message :: match e with
    | .address _ cause => [cause.message]
    | .server => []

end SendError

/-- sender and recipient as a mail server is told -/
structure Envelope where
  sender : Address
  recipient : Address
deriving DecidableEq, Repr

namespace Envelope

/-- an address with blanks around it; the complaint shows the text as given -/
def readAddress (text : String) : Except SendError Address :=
  (Address.parse (trim text.toList)).mapError (.address text)

/-- the envelope of a sender and a recipient -/
def parse (sender recipient : String) : Except SendError Envelope := do
  let s ← readAddress sender
  let r ← readAddress recipient
  return ⟨s, r⟩

end Envelope

end SheetPost.Mail
