/-
The URL under which a database is reached, with the account in it. For a database file it is the path behind
`sqlite://`, as it stands.
-/
import SheetPost.Config.Validity
import SheetPost.Url.Basic

namespace SheetPost.Database

open SheetPost.Text

/-- the driver, the host and the port as a URL, before anything is made of it -/
def address (d : Database) : List Char :=
  d.driver.toList ++ "://".toList ++ d.host.toList ++ ':' :: decimal d.port

/-- the path of a database by its name, if the name is not blank -/
def path? (d : Database) : Option (List Char) :=
  (d.database.filter (!isAllBlank ·)).map fun name => '/' :: name.toList.dropWhile (· == '/')

/-- a step that may be refused -/
def orFault {α : Type} (fault : Fault) : Option α → Except ConfigError α
  | some a => .ok a
  | none => .error (.invalid fault)

/-- the URL in its parts -/
def url? (d : Database) : Except ConfigError Url := do
  let u ← orFault .hostName (Url.parse? d.address)
  let u ← orFault .usernameEncoding (u.withUsername? d.username.toList)
  let u ← orFault .passwordEncoding (u.withPassword? d.password.toList)
  return (d.path?.map u.setPath).getD u

/-- the URL as text -/
def connectionUrl (d : Database) : Except ConfigError String :=
  if d.isFile then .ok ("sqlite://" ++ d.host) else d.url?.map fun u => String.ofList u.text

end SheetPost.Database
