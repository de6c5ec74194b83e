/-
The command that exports one table into a local file. The pool is closed before the result of the export is looked at,
and the file is touched only when everything else has succeeded.
-/
import SheetPost.Command.Outcome

namespace SheetPost.Command.ExportTable

/-- what the command is asked for -/
structure Request where
  config : String
  table : String
  out : Option String
deriving DecidableEq, Repr

/-- the options of the command -/
def options : List Opt :=
  [configOption, ⟨"table", none, .value "TABLE" false, true⟩, ⟨"out", none, .value "OUT" true, false⟩, helpOption]

/-- how the command is used -/
def help : String :=
  "Export one table or view to a local xlsx file using the configured database\n\n" ++
    "Usage: export-table [OPTIONS] --table <TABLE>\n\n" ++
    "Options:\n" ++
    "      --config <CONFIG>  Path to YAML or JSON config file [default: config.yaml]\n" ++
    "      --table <TABLE>    Table or view to export\n" ++
    "      --out <OUT>        Output file (defaults to <table>.xlsx)\n" ++
    "  -h, --help             Print help\n"

/-- the request that given options make -/
def Request.ofGiven (given : Given) : Request :=
  ⟨(given.lookup "config").getD defaultConfigPath, (given.lookup "table").getD "", given.lookup "out"⟩

/-- the file that the table goes into -/
def Request.path (r : Request) : String := r.out.getD (r.table ++ ".xlsx")

/-- the table as text -/
def readTable (table : String) : Act Relation.ExportError Sheet.Document :=
  Act.step (.query (Relation.selectAll table)) fun w h =>
    Relation.document table (w.query h (Relation.selectAll table))

/-- the whole export -/
def run (r : Request) : Act CommandError Unit := do
  let config ← loadConfig r.config
  let _ ← (Pool.connect config.database).mapError .source
  let document ← (Act.endingWith (readTable r.table) .close).mapError .table
  let content ← Act.ofExcept ((Relation.workbook document).mapError .table)
  Act.attempt (.save r.path content) (.save r.path) fun w h => w.save h r.path content

/-- the whole command -/
def start (arguments : List String) : Act CommandError (Ending Unit) :=
  Command.start options (fun _ => help) (run ∘ .ofGiven) arguments

end SheetPost.Command.ExportTable
