/-
Everything outside the program: files, the database, the mail server, and the chance and the clock that go into a
message. The program acts in steps; each step is remembered with its success, and what the world answers to a step may
depend on all steps before it.
-/
import SheetPost.Config.Basic
import SheetPost.Mail.Envelope
import SheetPost.Relation.Rows

namespace SheetPost

/-! ## Steps -/

/-- one thing the program does that others can see -/
inductive Step where
  /-- reads a file -/
  | load (path : String)
  /-- prepares to speak to a mail server -/
  | configure (host : String) (port : Nat)
  /-- opens a pool of connections to a database -/
  | connect (url : String)
  /-- tries a connection of the pool -/
  | ping
  /-- reads a relation -/
  | query (sql : String)
  /-- makes a message -/
  | build
  /-- hands a message to the mail server -/
  | send (sender recipient : String) (message : List UInt8)
  /-- closes the pool -/
  | close
  /-- creates a file or replaces it -/
  | save (path : String) (content : List UInt8)
deriving DecidableEq, Repr

/-- a step and whether it succeeded -/
structure Event where
  step : Step
  succeeded : Bool
deriving DecidableEq, Repr

/-- the steps so far, the last one first -/
abbrev History := List Event

namespace History

/-- the queries, in order -/
def queries (h : History) : List String :=
  h.reverse.filterMap fun e => match e.step with
    | .query sql => some sql
    | _ => none

/-- what was handed to the mail server, in order, and whether it was taken -/
def sendings (h : History) : List (String × String × List UInt8 × Bool) :=
  h.reverse.filterMap fun e => match e.step with
    | .send sender recipient message => some (sender, recipient, message, e.succeeded)
    | _ => none

/-- the files written, in order -/
def files (h : History) : List (String × List UInt8) :=
  h.reverse.filterMap fun e => match e.step with
    | .save path content => if e.succeeded then some (path, content) else none
    | _ => none

/-- how many pools are open -/
def openPools : History → Int
  | [] => 0
  | e :: h =>
    match e.step with
    | .connect _ => if e.succeeded then openPools h + 1 else openPools h
    | .close => openPools h - 1
    | _ => openPools h

/-- the URL of the pool that was opened last -/
def lastUrl (h : History) : Option String :=
  h.findSome? fun e => match e.step with
    | .connect url => if e.succeeded then some url else none
    | _ => none

/-- how many messages were made -/
def builds (h : History) : Nat := h.countP fun e => e.step == .build

end History

/-! ## Answers -/

/-- what chance and the clock put into a message: boundaries to choose from, and the date -/
structure Stamp where
  boundaries : List (List Char)
  date : List Char
deriving DecidableEq, Repr

/-- the answers to steps -/
structure World where
  /-- the content of a file, if it can be read -/
  load : History → String → Option (List UInt8)
  /-- the settings of the mail server can be used -/
  configure : History → MailServer → Bool
  /-- a pool for the URL can be opened -/
  connect : History → String → Bool
  /-- the database answers -/
  ping : History → Bool
  query : History → String → Except Relation.SourceError Relation.Rows
  stamp : History → Stamp
  send : History → String → String → List UInt8 → Except Mail.SendError Unit
  /-- the file can be written -/
  save : History → String → List UInt8 → Bool

end SheetPost
