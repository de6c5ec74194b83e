/-
The header field that names an attachment's file: a quoted string, and for a name beyond ASCII the percent-encoded
UTF-8 of it as a second parameter. `read?` is the reader of such a field.
-/
import SheetPost.Mail.EncodedWord
import SheetPost.Mail.QuotedString
import SheetPost.Text.Percent

namespace SheetPost.Mail.Disposition

open SheetPost.Text

/-- line breaks become spaces -/
def flatten (name : List Char) : List Char := name.map fun c => if c == '\r' || c == '\n' then ' ' else c

/-- bytes that an extended parameter holds as they are -/
def isAttrByte (b : UInt8) : Bool :=
  (Char.ofNat b.toNat).isAlphanum && b < 0x80 || "!#$&+-.^_\x60|~".toList.contains (Char.ofNat b.toNat)

/-- the value of an extended parameter -/
def extended (name : List Char) : List Char :=
  "utf-8''".toList ++ Percent.encode isAttrByte (Utf8.encode name)

/-- the value of the field for a file name -/
def encode (name : List Char) : List Char :=
  let inner := QuotedString.body (flatten name)
  if isAscii name then "attachment; filename=\"".toList ++ (inner ++ ['"'])
  else
    "attachment; filename=\"".toList ++ (EncodedWord.encode inner ++ ("\"; filename*=".toList ++ extended name))

/-! ## Reading -/

/-- parameters behind the kind: each a name, and a quoted string or whatever stands up to the next semicolon -/
def readParameters? (s : List Char) : Option (List (List Char × List Char)) :=
  match s with
  | [] => some []
  | c :: r =>
    if c != ';' then none
    else
      match cutAt '=' (r.dropWhile (· == ' ')) with
      | none => none
      | some (name, value) =>
        let (text, rest) := match QuotedString.read? value with
          | some cut => cut
          | none => (value.takeWhile (· != ';'), value.dropWhile (· != ';'))
        if rest.length ≤ r.length then (readParameters? rest).map ((name, text) :: ·) else none
termination_by s.length
decreasing_by simp only [List.length_cons]; omega

/-- the kind of a disposition and its parameters -/
def read? (s : List Char) : Option (List Char × List (List Char × List Char)) :=
  (readParameters? (s.dropWhile (· != ';'))).map fun parameters => (s.takeWhile (· != ';'), parameters)

/-- the text of an extended parameter -/
def readExtended? (s : List Char) : Option (List Char) :=
  (after? "utf-8''".toList s).bind fun r => Utf8.decode? (Percent.decode r)

end SheetPost.Mail.Disposition
