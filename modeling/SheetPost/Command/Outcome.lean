/-
How a command ends: its status, and what it says about a failure. A command that is asked for information tells it and
does nothing else.
-/
import SheetPost.Command.Arguments
import SheetPost.Config.Reader
import SheetPost.Delivery.Runner

namespace SheetPost.Command

/-- why a command fails -/
inductive CommandError where
  | usage (fault : UsageError)
  | config (cause : ConfigError)
  | source (cause : Relation.SourceError)
  | table (cause : Relation.ExportError)
  | save (path : String)
  | run (cause : Delivery.RunError)
deriving DecidableEq, Repr

namespace CommandError

/-- the status of a command that fails so; an interval that cannot be counted has one of its own -/
def status : CommandError → Nat
  | .usage _ => 2
  | .config (.schedule (.overflow _)) => 101
  | _ => 1

/-- the wordings from the failed step down to the first cause -/
def trail : CommandError → List String
  | .usage fault => [fault.message]
  | .config cause => cause.trail
  | .source cause => cause.trail
  | .table cause => cause.trail
  | .save path => ["failed to write " ++ path]
  | .run cause => cause.trail

/-- causes one below the other, numbered if there are several -/
def causes : List String → String
  | [] => ""
  | [cause] => "\n\nCaused by:\n    " ++ cause
  | several =>
    "\n\nCaused by:" ++ String.join (several.zipIdx.map fun (cause, i) => "\n    " ++ toString i ++ ": " ++ cause)

/-- what the command says -/
def text (e : CommandError) : String :=
  match e with
  | .usage fault => "error: " ++ fault.message
  | e => "Error: " ++ (e.trail.headD "") ++ causes e.trail.tail

end CommandError

/-- where the configuration is when nothing else is said -/
def defaultConfigPath : String := "config.yaml"

/-- reads the configuration -/
def loadConfig (path : String) : Act CommandError Config := fun w h =>
  let result := (ConfigFile.load (w.load h path)).mapError CommandError.config
  (result, ⟨.load path, Act.succeeded result⟩ :: h)

/-! ## From the arguments on -/

/-- what a command comes to that does not fail: it told about itself, or it did its work -/
inductive Ending (α : Type) where
  | told (text : String)
  | done (result : α)

variable {α : Type}

/-- a command by its options, what it tells for each that asks for information, and what it does -/
def start (options : List Opt) (tell : String → String) (run : Given → Act CommandError α) (arguments : List String) :
    Act CommandError (Ending α) :=
  match read options arguments with
  | .given given => do
    let result ← run given
    return .done result
  | .wrong fault => Act.fail (.usage fault)
  | .inform name => pure (.told (tell name))

end SheetPost.Command
