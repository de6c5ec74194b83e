/-
What one post asks for: which relations to export into which files, what to write with them, and to whom to send it.
-/

namespace SheetPost.Delivery

/-- a relation and the name of the file it goes into -/
structure FileRequest where
  relation : String
  fileName : String
deriving DecidableEq, Repr

/-- one message and its recipients -/
structure Spec where
  sender : String
  subject : String
  body : String
  files : List FileRequest
  recipients : List String
deriving DecidableEq, Repr

end SheetPost.Delivery
