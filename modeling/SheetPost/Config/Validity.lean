/-
What a configuration must satisfy, as a list of conditions in the order in which they are checked. The first that fails
is reported; the schedule is read last.
-/
import SheetPost.Config.Basic

namespace SheetPost

open SheetPost.Text

/-- a setting that is missing or cannot be used -/
inductive Fault where
  | mailHost
  | mailPort
  | mailAccount
  | driver
  | databaseHost
  | databasePort
  | databaseAccount
  | sender
  | recipients
  | table
  | excel
  | time
  | hostName
  | usernameEncoding
  | passwordEncoding
deriving DecidableEq, Repr

/-- the wording of a fault -/
def Fault.message : Fault → String
  | .mailHost => "email.host must be non-empty"
  | .mailPort => "email.port must be > 0"
  | .mailAccount => "email.username and email.password must be non-empty"
  | .driver => "db.driver must be one of postgres, mysql, sqlite"
  | .databaseHost => "db.host must be non-empty"
  | .databasePort => "db.port must be > 0"
  | .databaseAccount => "db.username and db.password must be non-empty"
  | .sender => "post.from must be non-empty"
  | .recipients => "post.to must list at least one non-empty address"
  | .table => "post.attachment.table must be non-empty"
  | .excel => "post.attachment.excel must be non-empty"
  | .time => "time must be non-empty"
  | .hostName => "db.host is not a valid host name"
  | .usernameEncoding => "db.username cannot be encoded"
  | .passwordEncoding => "db.password cannot be encoded"

/-- why a configuration cannot be used -/
inductive ConfigError where
  /-- the file cannot be read as text -/
  | io
  /-- the text is not a configuration -/
  | parse
  | invalid (fault : Fault)
  | schedule (cause : ScheduleError)
deriving DecidableEq, Repr

/-- the wording of the cause -/
def ConfigError.message : ConfigError → String
  | .io => "I/O error"
  | .parse => "config parse error"
  | .invalid fault => "Invalid configuration: " ++ fault.message
  | .schedule cause => "invalid schedule: " ++ cause.message

/-- the wordings from the error down to its first cause -/
def ConfigError.trail (e : ConfigError) : List String :=
  e.message :: match e with
    | .schedule cause => [cause.message]
    | _ => []

/-- a condition with the fault that its failure is -/
structure Condition where
  holds : Bool
  fault : Fault
deriving DecidableEq, Repr

/-- name and password of an account -/
def hasAccount (username password : String) : Bool := !isAllBlank username && !password.isEmpty

/-- the conditions on the mail server -/
def MailServer.conditions (s : MailServer) : List Condition :=
  [⟨!isAllBlank s.host, .mailHost⟩, ⟨s.port != 0, .mailPort⟩, ⟨hasAccount s.username s.password, .mailAccount⟩]

/-- the conditions on the database -/
def Database.conditions (d : Database) : List Condition :=
  [⟨Database.knownDrivers.contains d.driver, .driver⟩, ⟨!isAllBlank d.host, .databaseHost⟩,
    ⟨d.isFile || d.port != 0, .databasePort⟩, ⟨d.isFile || hasAccount d.username d.password, .databaseAccount⟩]

/-- the conditions on an attachment -/
def TableFile.conditions (a : TableFile) : List Condition :=
  [⟨!isAllBlank a.table, .table⟩, ⟨!isAllBlank a.excel, .excel⟩]

/-- the conditions on a post -/
def Post.conditions (p : Post) : List Condition :=
  [⟨!isAllBlank p.sender, .sender⟩, ⟨!p.recipients.isEmpty && p.recipients.all (!isAllBlank ·), .recipients⟩] ++
    p.attachments.flatMap TableFile.conditions

namespace Config

/-- all conditions but that the schedule can be read -/
def conditions (c : Config) : List Condition :=
  c.server.conditions ++ c.database.conditions ++ c.posts.flatMap Post.conditions ++ [⟨!isAllBlank c.time, .time⟩]

/-- the configuration can be used, or the first thing wrong with it -/
def validate (c : Config) : Except ConfigError Unit :=
  match c.conditions.find? (!·.holds) with
  | some failed => .error (.invalid failed.fault)
  | none =>
    match c.schedule with
    | .ok _ => .ok ()
    | .error cause => .error (.schedule cause)

end Config

end SheetPost
