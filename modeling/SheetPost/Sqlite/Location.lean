/-
Where a URL says that an SQLite database is: a file, or memory that is given up with the last connection.
-/
import SheetPost.Text.Blank
import SheetPost.Text.Percent
import SheetPost.Text.Search
import SheetPost.Text.Utf8

namespace SheetPost.Sqlite

open SheetPost.Text

/-- how the file may be used -/
inductive Mode where
  | read
  | write
  | create
deriving DecidableEq, Repr

/-- a place for a database -/
structure Location where
  path : String
  inMemory : Bool
  mode : Mode
  vfs : Option String
deriving DecidableEq, Repr

namespace Location

/-- what databases in memory are called -/
def memoryName : String := ":memory:"

/-- the text behind any number of leads -/
def dropLeads (lead s : List Char) : List Char :=
  match after? lead s with
  | some r => if r.length < s.length then dropLeads lead r else s
  | none => s
termination_by s.length

/-- a name or value of a parameter -/
def plain (s : List Char) : String :=
  String.ofList (Utf8.decodeLossy (Percent.decode (s.map fun c => if c == '+' then ' ' else c)))

/-- parameters with their values -/
def readParameters (s : List Char) : List (String × String) :=
  ((split (· == '&') s).filter (!·.isEmpty)).map fun p =>
    match cutAt '=' p with
    | some (name, value) => (plain name, plain value)
    | none => (plain p, "")

/-- the place after one more parameter; an unknown one is refused, and so is an unknown value -/
def withParameter (l : Location) (p : String × String) : Option Location :=
  match p with
  | ("mode", "ro") => some { l with mode := .read }
  | ("mode", "rw") => some l
  | ("mode", "rwc") => some { l with mode := .create }
  | ("mode", "memory") => some { l with inMemory := true }
  | ("cache", value) => if value == "private" || value == "shared" then some l else none
  | ("immutable", value) => if ["true", "1", "false", "0"].contains value then some l else none
  | ("vfs", value) => some { l with vfs := some value }
  | _ => none

/-- the place that a path names -/
def ofPath? (path : List Char) : Option Location :=
  if String.ofList path == memoryName then some ⟨memoryName, true, .write, none⟩
  else (Utf8.decode? (Percent.decode path)).map fun p => ⟨String.ofList p, false, .write, none⟩

/-- the place that a URL names -/
def parse? (url : String) : Option Location := do
  let s := dropLeads "sqlite:".toList (dropLeads "sqlite://".toList url.toList)
  let (path, parameters) := (cutAt '?' s).getD (s, [])
  let l ← ofPath? path
  (readParameters parameters).foldlM withParameter l

/-- the file systems that are known by name -/
def knownSystems : List String := ["unix", "unix-dotfile", "unix-excl", "unix-none"]

/-- a database of its own, which has no file of that name -/
def isTransient (l : Location) : Bool := l.inMemory || l.path == "" || l.path == memoryName

/-- the file system, if one is named, is known -/
def isSupported (l : Location) : Bool := l.vfs.all knownSystems.contains

end Location

end SheetPost.Sqlite
