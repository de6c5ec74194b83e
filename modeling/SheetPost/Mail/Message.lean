/-
A message of several parts: the header fields, the body text in quoted-printable, and the attachments in base64, in
that order. `build` checks the header values first, then the mailboxes, and draws a boundary that no part holds;
`read?` is the reader of such a message.
-/
import SheetPost.Mail.Disposition
import SheetPost.Mail.Mailbox
import SheetPost.Mail.QuotedPrintable
import SheetPost.Text.Quoted
import SheetPost.Text.Search

namespace SheetPost.Mail

open SheetPost.Text

/-- a file to go with a message -/
structure Attachment where
  fileName : String
  mimeType : String
  payload : List UInt8
deriving DecidableEq, Repr

/-- who writes to whom about what -/
structure Headers where
  sender : String
  recipients : List String
  subject : String
deriving DecidableEq, Repr

/-- the header fields that hold text of the user -/
inductive Field where
  | sender
  | recipient
  | subject
deriving DecidableEq, Repr

/-- the name of a field in the message -/
def Field.name : Field → String
  | .sender => "From"
  | .recipient => "To"
  | .subject => "Subject"

/-- why no message is built -/
inductive BuildError where
  | lineBreak (field : Field)
  | mailbox (field : Field) (value : String)
  | noBoundary
deriving DecidableEq, Repr

/-- the wording of the cause -/
def BuildError.message : BuildError → String
  | .lineBreak field => "header " ++ field.name ++ " contains a line break"
  | .mailbox field value => "header " ++ field.name ++ " holds an invalid mailbox " ++ quoted value
  | .noBoundary => "could not find a boundary absent from the message content"

/-- header fields and body of one part, as they stand in the message -/
structure Part where
  fields : List (List Char × List Char)
  body : List Char
deriving DecidableEq, Repr

/-- a built message: its boundary and the whole text -/
structure Message where
  boundary : List Char
  text : List Char
deriving DecidableEq, Repr

namespace Message

/-- the bytes that go to the mail server -/
def bytes (m : Message) : List UInt8 := Utf8.encode m.text

/-! ## Building -/

/-- what `To` shows when recipients are not to learn of each other -/
def undisclosed : List Char := "undisclosed-recipients:;".toList

/-- the fields with text of the user, in the order in which they are checked for line breaks -/
def checked (h : Headers) : List (Field × String) :=
  (.sender, h.sender) :: (.subject, h.subject) :: h.recipients.map fun r => (.recipient, r)

/-- a mailbox as written, or the complaint about it -/
def renderMailbox (field : Field) (value : String) : Except BuildError (List Char) :=
  match Mailbox.parse value.toList with
  | .ok m => .ok m.render
  | .error _ => .error (.mailbox field value)

/-- the value of `To` -/
def renderRecipients (recipients : List String) : Except BuildError (List Char) :=
  if recipients.isEmpty then .ok undisclosed
  else (recipients.mapM (renderMailbox .recipient)).map (join [',', ' '])

/-- the part that holds the text -/
def bodyPart (text : String) : Part where
  fields := [("Content-Type".toList, "text/plain; charset=utf-8".toList),
    ("Content-Transfer-Encoding".toList, "quoted-printable".toList)]
  body := QuotedPrintable.encode text.toList

/-- the part that holds an attachment -/
def attachmentPart (a : Attachment) : Part where
  fields := [("Content-Type".toList, a.mimeType.toList), ("Content-Transfer-Encoding".toList, "base64".toList),
    ("Content-Disposition".toList, Disposition.encode a.fileName.toList)]
  body := Base64.wrapped a.payload

/-- a boundary without its marks stands in a part -/
def clashes (parts : List Part) (boundary : List Char) : Bool :=
  let delimiter := '-' :: '-' :: boundary
  parts.any fun p => occursIn delimiter p.body || p.fields.any fun f => occursIn delimiter f.2

/-- how many boundaries are tried -/
def boundaryAttempts : Nat := 3

/-- the first of the drawn boundaries that stands in no part -/
def pickBoundary? (parts : List Part) (drawn : List (List Char)) : Option (List Char) :=
  (drawn.take boundaryAttempts).find? fun b => !clashes parts b

/-- a field with its line break -/
def fieldLine (f : List Char × List Char) : List Char := f.1 ++ (':' :: ' ' :: (f.2 ++ crlf))

/-- fields, an empty line and what follows them -/
def block (fields : List (List Char × List Char)) (rest : List Char) : List Char :=
  fields.flatMap fieldLine ++ (crlf ++ rest)

/-- a part behind its delimiter -/
def partText (boundary : List Char) (p : Part) : List Char :=
  '-' :: '-' :: (boundary ++ (crlf ++ block p.fields p.body))

/-- the parts between their delimiters -/
def multipart (boundary : List Char) (parts : List Part) : List Char :=
  join crlf (parts.map (partText boundary)) ++ (crlf ++ ('-' :: '-' :: (boundary ++ ('-' :: '-' :: crlf))))

/-- the fields of the whole message -/
def topFields (sender recipients subject date boundary : List Char) : List (List Char × List Char) :=
  [("From".toList, sender), ("To".toList, recipients), ("Subject".toList, EncodedWord.encode subject),
    ("Date".toList, date), ("MIME-Version".toList, "1.0".toList),
    ("Content-Type".toList, "multipart/mixed; boundary=\"".toList ++ (boundary ++ ['"']))]

/-- the message, or the first thing wrong with what it is made of; boundaries and date are drawn by the caller -/
def build (drawn : List (List Char)) (date : List Char) (h : Headers) (text : String) (attachments : List Attachment) :
    Except BuildError Message := do
  match (checked h).find? fun f => hasBreak f.2.toList with
  | some f => throw (.lineBreak f.1)
  | none =>
    let sender ← renderMailbox .sender h.sender
    let recipients ← renderRecipients h.recipients
    let parts := bodyPart text :: attachments.map attachmentPart
    match pickBoundary? parts drawn with
    | none => throw .noBoundary
    | some boundary =>
      let fields := topFields sender recipients h.subject.toList date boundary
      return ⟨boundary, block fields (multipart boundary parts)⟩

/-! ## Reading -/

/-- header lines with their continuations, which begin with a blank, joined to them -/
def unfold : List (List Char) → List (List Char)
  | [] => []
  | line :: lines =>
    match unfold lines with
    | next :: more =>
      if (lines.head?.bind List.head?).any (fun c => c == ' ' || c == '\t') then (line ++ next) :: more
      else line :: next :: more
    | [] => [line]

/-- name and value of an unfolded field -/
def readField? (line : List Char) : Option (List Char × List Char) := cutAtText [':', ' '] line

/-- the fields up to the first empty line, and what follows it -/
def readBlock? (s : List Char) : Option (List (List Char × List Char) × List Char) :=
  match after? crlf s with
  | some rest => some ([], rest)
  | none =>
    match cutAtText (crlf ++ crlf) s with
    | none => none
    | some (head, rest) => ((unfold (splitLines head)).mapM readField?).map fun fields => (fields, rest)

/-- a part behind the line of its delimiter -/
def readPart? (s : List Char) : Option Part := (readBlock? s).map fun (fields, body) => ⟨fields, body⟩

/-- the parts of the pieces between delimiters, the last of which begins with two hyphens -/
def readParts? : List (List Char) → Option (List Part)
  | [] => none
  | [closing] => (after? ['-', '-'] closing).map fun _ => []
  | piece :: more =>
    match (after? crlf piece).bind readPart?, readParts? more with
    | some p, some ps => some (p :: ps)
    | _, _ => none

/-- the boundary that a content type names -/
def readBoundary? (value : List Char) : Option (List Char) :=
  (cutAtText "boundary=".toList value).bind fun (_, r) => QuotedString.decode? r

/-- the fields of a message and its parts -/
def read? (s : List Char) : Option (List (List Char × List Char) × List Part) :=
  match readBlock? s with
  | none => none
  | some (fields, rest) =>
    match (fields.lookup "Content-Type".toList).bind readBoundary? with
    | none => none
    | some boundary =>
      match splitAtText (crlf ++ ('-' :: '-' :: boundary)) (crlf ++ rest) with
      | _preamble :: pieces => (readParts? pieces).map fun parts => (fields, parts)
      | [] => none

end Message

end SheetPost.Mail
