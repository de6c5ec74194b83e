/-
What a database answers when a relation is read: the names of its columns and its rows of texts, or why there is no
answer. The name of a relation goes into the query as it stands, so it may also be a qualified name.
-/
import SheetPost.Config.Validity

namespace SheetPost.Relation

open SheetPost.Text

/-- a result set; a cell without a text is NULL -/
structure Rows where
  columns : List String
  rows : List (List (Option String))
deriving DecidableEq, Repr

/-- why a database gives no rows -/
inductive SourceError where
  /-- the settings give no URL -/
  | settings (cause : ConfigError)
  /-- no driver knows URLs of this kind -/
  | scheme (text : String)
  /-- the driver failed, perhaps with a known wording -/
  | driver (detail : Option String)
  /-- the source failed with a message of its own -/
  | failed (message : String)
deriving DecidableEq, Repr

namespace SourceError

/-- the wording of the cause -/
def message : SourceError → String
  | .settings cause => "invalid database settings: " ++ cause.message
  | .scheme text => "unsupported database url scheme " ++ quoted text
  | .driver none => "database error"
  | .driver (some detail) => "database error: " ++ detail
  | .failed message => message

/-- the wordings from the error down to its first cause -/
def trail (e : SourceError) : List String :=
  e.message :: match e with
    | .settings cause => cause.trail
    | .driver detail => detail.toList
    | _ => []

end SourceError

/-- the query for the whole of a relation -/
def selectAll (relation : String) : String := "SELECT * FROM " ++ relation

end SheetPost.Relation
