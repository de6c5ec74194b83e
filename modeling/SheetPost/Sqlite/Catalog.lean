/-
Databases of tables, and the queries that the exporter sends: every row of one table, in the order of insertion. The
table is named as SQL names it: bare, in quotes, or behind the name of the main database.
-/
import SheetPost.Relation.Reading
import SheetPost.Sqlite.Value

namespace SheetPost.Sqlite

open SheetPost.Text

/-- a column as declared -/
structure Column where
  name : String
  type : String
deriving DecidableEq, Repr

/-- a table and the values that were put into it -/
structure Table where
  name : String
  columns : List Column
  rows : List (List Value)
deriving DecidableEq, Repr

/-- the tables of a database, in the order of their making -/
abbrev Catalog := List Table

/-! ## Tables -/

/-- a value that has gone through a column, under the name of the column -/
def Column.fetched (c : Column) (v : Value) : String × Relation.Cell :=
  let affinity := Affinity.ofType c.type
  (c.name, (affinity.shown (affinity.store v)).fetched)

/-- the rows of a table as they are given out -/
def Table.fetched (t : Table) : List Relation.FetchedRow := t.rows.map (List.zipWith Column.fetched t.columns)

/-- the names of the columns, which are known without any row -/
def Table.described (t : Table) : List String := t.columns.map (·.name)

/-- a name in double quotes -/
def quotedName (s : String) : String :=
  String.ofList ('"' :: (s.toList.flatMap (fun c => if c == '"' then ['"', '"'] else [c]) ++ ['"']))

/-- the statement that makes a table -/
def Table.statement (t : Table) : String :=
  let column (c : Column) : String := quotedName c.name ++ " " ++ c.type
  "CREATE TABLE " ++ quotedName t.name ++ " (" ++ String.intercalate ", " (t.columns.map column) ++ ")"

/-- the table that lists the tables -/
def Catalog.master (c : Catalog) : Table where
  name := "sqlite_master"
  columns := [⟨"type", "TEXT"⟩, ⟨"name", "TEXT"⟩, ⟨"tbl_name", "TEXT"⟩, ⟨"rootpage", "INT"⟩, ⟨"sql", "TEXT"⟩]
  rows := c.zipIdx.map fun (t, i) =>
    [.text "table", .text t.name, .text t.name, .int (i + 2 : Nat), .text t.statement]

/-! ## Names -/

/-- the words of SQL that are no names unless quoted -/
def reserved : List String :=
  ["add", "all", "alter", "and", "as", "autoincrement", "between", "case", "check", "collate", "commit", "constraint",
    "create", "default", "deferrable", "delete", "distinct", "drop", "else", "escape", "exists", "foreign", "from",
    "group", "having", "in", "index", "insert", "intersect", "into", "is", "isnull", "join", "limit", "not", "notnull",
    "null", "on", "or", "order", "primary", "references", "select", "set", "table", "then", "to", "transaction",
    "union", "unique", "update", "using", "values", "when", "where"]

/-- what a bare name consists of -/
def isNameChar (c : Char) : Bool := c.isAlphanum || c == '_' || c == '$' || 0x80 ≤ c.toNat

/-- the name up to the closing quote, where a doubled quote is one character, and what follows -/
def cutQuoted (quote : Char) : List Char → Option (List Char × List Char)
  | [] => none
  | c :: r =>
    if c != quote then (cutQuoted quote r).map fun (name, rest) => (c :: name, rest)
    else
      match r with
      | d :: r' =>
        if d == quote then (cutQuoted quote r').map fun (name, rest) => (d :: name, rest) else some ([], d :: r')
      | [] => some ([], [])

/-- one name and what follows -/
def cutName (s : List Char) : Option (List Char × List Char) :=
  match s with
  | '"' :: r => cutQuoted '"' r
  | c :: r =>
    let name := (c :: r).takeWhile isNameChar
    if name.isEmpty || c.isDigit || c == '$' || reserved.contains (String.ofList (name.map Char.toLower)) then none
    else some (name, (c :: r).dropWhile isNameChar)
  | [] => none

/-- the same but for upper and lower case of the Latin alphabet -/
def sameName (a b : List Char) : Bool := a.map Char.toLower == b.map Char.toLower

/-- the database of all tables -/
def mainName : List Char := "main".toList

/-- the name of a table, alone or behind the name of a database -/
def readTableName? (s : List Char) : Option (Option (List Char) × List Char) :=
  match cutName (trimWhile isSpace s) with
  | some (name, []) => some (none, name)
  | some (schema, '.' :: r) =>
    match cutName r with
    | some (name, []) => some (some schema, name)
    | _ => none
  | _ => none

/-- how a complaint shows the name of a table -/
def shownName : Option (List Char) × List Char → String
  | (none, name) => String.ofList name
  | (some schema, name) => String.ofList (schema ++ '.' :: name)

/-! ## Queries -/

/-- the table of a name -/
def Catalog.find? (c : Catalog) (name : Option (List Char) × List Char) : Option Table :=
  if name.1.all (sameName mainName) then (c.master :: c).find? fun t => sameName t.name.toList name.2 else none

/-- the answer to a query -/
def Catalog.query (c : Catalog) (sql : String) : Except Relation.SourceError Relation.Rows :=
  match (after? (Relation.selectAll "").toList sql.toList).bind readTableName? with
  | none => .error (.driver none)
  | some name =>
    match c.find? name with
    | some t => Relation.readRows t.fetched (.ok t.described)
    | none => .error (.driver (some ("error returned from database: (code: 1) no such table: " ++ shownName name)))

end SheetPost.Sqlite
