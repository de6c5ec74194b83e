/-
The settings of a mailing: the mail server, the database, the posts and the schedule. Each post becomes a delivery spec.
-/
import SheetPost.Delivery.Spec
import SheetPost.Schedule.Basic

namespace SheetPost

open SheetPost.Text

/-- the mail server and the account on it -/
structure MailServer where
  host : String
  port : Nat
  username : String
  password : String
deriving DecidableEq, Repr

/-- the server as logs show it, without the account -/
def MailServer.shown (s : MailServer) : String :=
  "SmtpTransport \x7b host: " ++ quoted s.host ++ ", port: " ++ String.ofList (decimal s.port) ++ ", .. \x7d"

/-- the database; for `sqlite` the host is the path of the file -/
structure Database where
  driver : String
  host : String
  port : Nat
  username : String
  password : String
  database : Option String
deriving DecidableEq, Repr

namespace Database

/-- the driver when none is given -/
def defaultDriver : String := "postgres"

/-- the driver of databases that are files -/
def fileDriver : String := "sqlite"

/-- the drivers that a valid configuration names -/
def knownDrivers : List String := ["postgres", "mysql", "sqlite"]

/-- the database is a file, so it has no port and no account -/
def isFile (d : Database) : Bool := d.driver == fileDriver

end Database

/-- a table and the name of the file it is attached as -/
structure TableFile where
  table : String
  excel : String
deriving DecidableEq, Repr

/-- one message and whom it goes to -/
structure Post where
  sender : String
  recipients : List String
  subject : String
  body : String
  attachments : List TableFile
deriving DecidableEq, Repr

/-- all settings -/
structure Config where
  server : MailServer
  database : Database
  posts : List Post
  time : String
deriving DecidableEq, Repr

/-- the delivery that a post asks for -/
def Post.spec (p : Post) : Delivery.Spec where
  sender := p.sender
  subject := p.subject
  body := p.body
  files := p.attachments.map fun a => ⟨a.table, a.excel⟩
  recipients := p.recipients

namespace Config

/-- one delivery per post, in order -/
def specs (c : Config) : List Delivery.Spec := c.posts.map Post.spec

/-- when to run -/
def schedule (c : Config) : Except ScheduleError Schedule := Schedule.parse c.time

end Config

end SheetPost
