/-
The command that mails the tables of a configuration, once or whenever its schedule says so.
-/
import SheetPost.Command.Outcome
import SheetPost.Trigger.Loop

namespace SheetPost.Command.Mailer

/-- what the command is asked for -/
structure Request where
  config : String
  once : Bool
deriving DecidableEq, Repr

/-- the options of the command -/
def options : List Opt := [configOption, ⟨"once", none, .flag, false⟩, helpOption, versionOption]

/-- how the command is used -/
def help : String :=
  "Mail database tables as spreadsheet attachments on a schedule\n\n" ++
    "Usage: table-mailer [OPTIONS]\n\n" ++
    "Options:\n" ++
    "      --config <CONFIG>  Path to YAML or JSON config file [default: config.yaml]\n" ++
    "      --once             Run the job once immediately and exit instead of scheduling it\n" ++
    "  -h, --help             Print help\n" ++
    "  -V, --version          Print version\n"

/-- the name of the command and its version -/
def version : String := "table-mailer 0.1.0\n"

/-- the request that given options make -/
def Request.ofGiven (given : Given) : Request :=
  ⟨(given.lookup "config").getD defaultConfigPath, (given.lookup "once").isSome⟩

/-- what is left to do -/
inductive Task where
  | finished (report : Delivery.Report)
  /-- runs on a schedule -/
  | scheduled (config : Config) (schedule : Schedule)

/-- the command up to its schedule, or to the end of a single run -/
def run (r : Request) : Act CommandError Task := do
  let config ← loadConfig r.config
  let schedule ← Act.ofExcept (config.schedule.mapError (CommandError.config ∘ ConfigError.schedule))
  if r.once then
    let report ← (Delivery.runConfig config).mapError .run
    return .finished report
  else return .scheduled config schedule

/-- the whole command up to there -/
def start (arguments : List String) : Act CommandError (Ending Task) :=
  Command.start options (fun name => if name == versionOption.name then version else help) (run ∘ .ofGiven) arguments

end SheetPost.Command.Mailer
