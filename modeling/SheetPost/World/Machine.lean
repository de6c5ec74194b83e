/-
A world that is one machine: some files, some SQLite databases, and no server to speak to. Mail addresses are checked
before the mail server refuses the connection.
-/
import SheetPost.Sqlite.Catalog
import SheetPost.Sqlite.Location
import SheetPost.World.Basic

namespace SheetPost

open SheetPost.Text SheetPost.Sqlite

/-- a machine -/
structure Machine where
  files : List (String × List UInt8)
  databases : List (String × Catalog)
  /-- where files can be made -/
  directories : List String
  stamp : Stamp

namespace Machine

/-- the path without names that stay where they are -/
def plainPath (path : String) : String :=
  match split (· == '/') path.toList with
  | first :: more => String.ofList (join ['/'] ((first :: more.filter (!·.isEmpty)).filter (· != ['.'])))
  | [] => path

/-- the directory of a path; the working directory has no name -/
def directory (path : String) : String :=
  match cutAtLast '/' path.toList with
  | some (d, _) => String.ofList d
  | none => ""

/-- a path ends in the name of a file -/
def namesFile (path : String) : Bool :=
  match (split (· == '/') path.toList).getLast? with
  | some name => name != [] && name != ['.'] && name != ['.', '.']
  | none => false

/-- the content of a file -/
def file? (m : Machine) (path : String) : Option (List UInt8) :=
  if namesFile path then m.files.lookup (plainPath path) else none

/-- a file can be made under a path -/
def canSave (m : Machine) (path : String) : Bool :=
  let plain := plainPath path
  namesFile path && m.directories.contains (directory plain) && !m.directories.contains plain

/-- the database at a place; in memory and in new files there is an empty one -/
def catalog? (m : Machine) (l : Location) : Option Catalog :=
  if !l.isSupported then none
  else if l.isTransient then some []
  else (m.databases.lookup (plainPath l.path)).or (if l.mode = .create && m.canSave l.path then some [] else none)

/-- the database behind a URL -/
def catalogAt? (m : Machine) (url : String) : Option Catalog :=
  if (url.toList.takeWhile (· != ':')) == "sqlite".toList then (Location.parse? url).bind m.catalog? else none

/-- what a machine answers -/
def world (m : Machine) : World where
  load _ path := m.file? path
  configure _ _ := true
  connect _ url := (m.catalogAt? url).isSome
  ping _ := true
  query h sql :=
    match h.lastUrl.bind m.catalogAt? with
    | some c => c.query sql
    | none => .error (.driver none)
  stamp _ := m.stamp
  send _ sender recipient _ := do
    let _ ← Mail.Envelope.parse sender recipient
    throw .server
  save _ path _ := m.canSave path

end Machine

end SheetPost
