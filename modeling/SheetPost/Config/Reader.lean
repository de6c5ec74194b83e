/-
A configuration read from a YAML document. Known keys may come in any order, once each; unknown keys are passed over.
Text settings take any scalar as it stands, ports a plain number, lists a sequence or nothing at all.
-/
import SheetPost.Config.Validity
import SheetPost.Yaml.Node

namespace SheetPost.ConfigFile

open SheetPost.Text SheetPost.Yaml

/-! ## Aliases -/

/-- readers count the aliases that they follow -/
abbrev Reader := StateT Nat Option

/-- how many aliases may be followed for each sign of the document -/
def aliasesPerSign : Nat := 100

/-- the node itself, or the one that an alias refers to -/
def follow (d : Document) (n : Node) : Reader Node :=
  match n with
  | .alias number => do
    let followed ← get
    set (followed + 1)
    if followed + 1 > aliasesPerSign * d.root.size then failure
    match d.target? number with
    | some n => return n
    | none => failure
  | n => return n

/-! ## Settings -/

/-- a text: any scalar -/
def text (d : Document) (n : Node) : Reader String := do
  match ← follow d n with
  | .scalar s _ _ => return String.ofList s
  | _ => failure

/-- the tag of whole numbers -/
def numberTag : List Char := "tag:yaml.org,2002:int".toList

/-- the tag of nothing -/
def nullTag : List Char := "tag:yaml.org,2002:null".toList

/-- the largest number -/
def maxPort : Nat := 65535

/-- a number in decimal without a zero in front, or in another base behind `0x`, `0o` or `0b`; a plus sign may stand
before it -/
def readNumber? (s : List Char) : Option Nat :=
  let digits := match s with
    | '+' :: r => r
    | s => s
  let based (base : Nat) (r : List Char) : Option Nat := (readDigits? base r).filter (· ≤ maxPort)
  match digits with
  | '0' :: 'x' :: r => based 16 r
  | '0' :: 'o' :: r => based 8 r
  | '0' :: 'b' :: r => based 2 r
  | '0' :: _ :: _ => none
  | r => based 10 r

/-- a port: a plain scalar, or a literal one with the tag of numbers -/
def port (d : Document) (n : Node) : Reader Nat := do
  match ← follow d n with
  | .scalar s style tag =>
    if style == .plain || (style == .literal && tag == some numberTag) then
      match readNumber? s with
      | some n => return n
      | none => failure
    else failure
  | _ => failure

/-- a plain scalar that means nothing -/
def isNull (s : List Char) : Bool := ["null", "Null", "NULL", "~"].contains (String.ofList s)

/-- a text or nothing -/
def optionalText (d : Document) (n : Node) : Reader (Option String) := do
  match ← follow d n with
  | .scalar s style tag =>
    if style != .plain then return some (String.ofList s)
    match tag with
    | some tag =>
      if tag != nullTag then return some (String.ofList s)
      if isNull s then return none
      failure
    | none => if s.isEmpty || isNull s then return none else return some (String.ofList s)
  | _ => failure

/-- a list: a sequence, or a plain scalar without text -/
def list {α : Type} (d : Document) (item : Node → Reader α) (n : Node) : Reader (List α) := do
  match ← follow d n with
  | .sequence items => items.mapM item
  | .scalar [] .plain _ => return []
  | _ => failure

/-! ## Groups of settings -/

/-- the nodes at the known keys of a mapping -/
def fieldsOf (d : Document) (known : List String) : List (Node × Node) → Reader (List (String × Node))
  | [] => return []
  | (k, v) :: r => do
    let key ← text d k
    let fields ← fieldsOf d known r
    if known.contains key then
      if (fields.lookup key).isSome then failure else return (key, v) :: fields
    else return fields

/-- the fields of a group -/
def group (d : Document) (known : List String) (n : Node) : Reader (List (String × Node)) := do
  match ← follow d n with
  | .mapping pairs => fieldsOf d known pairs
  | _ => failure

/-- a setting that must be there -/
def required {α : Type} (fields : List (String × Node)) (key : String) (read : Node → Reader α) : Reader α :=
  match fields.lookup key with
  | some n => read n
  | none => failure

/-- a setting with a value to fall back on -/
def withDefault {α : Type} (fields : List (String × Node)) (key : String) (default : α) (read : Node → Reader α) :
    Reader α :=
  match fields.lookup key with
  | some n => read n
  | none => return default

/-- the mail server -/
def mailServer (d : Document) (n : Node) : Reader MailServer := do
  let f ← group d ["host", "port", "username", "password"] n
  return ⟨← required f "host" (text d), ← required f "port" (port d), ← required f "username" (text d),
    ← required f "password" (text d)⟩

/-- the database -/
def database (d : Document) (n : Node) : Reader Database := do
  let f ← group d ["driver", "host", "port", "username", "password", "database"] n
  return ⟨← withDefault f "driver" Database.defaultDriver (text d), ← required f "host" (text d),
    ← withDefault f "port" 0 (port d), ← withDefault f "username" "" (text d), ← withDefault f "password" "" (text d),
    ← withDefault f "database" none (optionalText d)⟩

/-- an attachment -/
def tableFile (d : Document) (n : Node) : Reader TableFile := do
  let f ← group d ["table", "excel"] n
  return ⟨← required f "table" (text d), ← required f "excel" (text d)⟩

/-- a post -/
def post (d : Document) (n : Node) : Reader Post := do
  let f ← group d ["from", "to", "subject", "body", "attachment"] n
  return ⟨← required f "from" (text d), ← required f "to" (list d (text d)), ← required f "subject" (text d),
    ← withDefault f "body" "" (text d), ← withDefault f "attachment" [] (list d (tableFile d))⟩

/-- the whole configuration -/
def config (d : Document) (n : Node) : Reader Config := do
  let f ← group d ["email", "db", "post", "time"] n
  return ⟨← required f "email" (mailServer d), ← required f "db" (database d),
    ← withDefault f "post" [] (list d (post d)), ← required f "time" (text d)⟩

/-! ## Files -/

/-- the configuration that a text is, valid or not -/
def parse? (s : List Char) : Option Config :=
  (Document.ofText? s).bind fun d => ((config d d.root).run 0).map (·.1)

/-- a valid configuration from the content of a file, if there is one -/
def load (content : Option (List UInt8)) : Except ConfigError Config := do
  match content.bind Utf8.decode? with
  | none => throw .io
  | some s =>
    match parse? s with
    | none => throw .parse
    | some c =>
      c.validate
      return c

/-- a configuration with every setting -/
def exampleText : String :=
"email:
  host: \"smtp.example.com\"
  port: 465
  username: \"USERNAME\"
  password: \"PASSWORD\"

db:
  driver: \"postgres\"
  host: \"10.0.0.5\"
  port: 5432
  username: \"USERNAME\"
  password: \"PASSWORD\"
  database: \"reports\"

post:
  - from: \"reports@example.com\"
    to:
      - \"alice@example.com\"
      - \"bob@example.com\"
    subject: \"Daily export\"
    body: \"Attached are today's tables.\"
    attachment:
      - table: \"TEST_01\"
        excel: \"01.xlsx\"
      - table: \"TEST_02\"
        excel: \"02.xlsx\"

time: \"0 0 0 * * *\"
"

end SheetPost.ConfigFile
