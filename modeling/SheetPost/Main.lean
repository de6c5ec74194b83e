/-
The commands `export-table` and `table-mailer`, named by the first argument. What they do is decided elsewhere; here are
the clock, chance and files. There is no driver for a server among these, so a database is one in memory, and no mail
server takes a message.
-/
import Std.Time.Zoned
import SheetPost.Calendar.Rfc2822
import SheetPost.Command.ExportTable
import SheetPost.Command.Mailer
import SheetPost.World.Machine

namespace SheetPost.Main

open SheetPost.Calendar SheetPost.Command

/-! ## The machine -/

/-- what the clock shows -/
def clock : IO Moment := do
  let t ← Std.Time.DateTime.now
  let shown := t.date.get
  let date : Date := ⟨shown.date.year, shown.date.month.val.toNat, shown.date.day.val.toNat⟩
  let time : Time := ⟨shown.time.hour.val.toNat, shown.time.minute.val.toNat, shown.time.second.val.toNat⟩
  return ⟨date, time, shown.time.nanosecond.val.toNat, t.timezone.offset.second.val⟩

/-- how far clocks are ahead that follow some rules -/
def distances (rules : Std.Time.TimeZone.ZoneRules) : List Int :=
  let types := rules.initialLocalTimeType :: rules.transitions.toList.map (·.localTimeType)
  let recurring := rules.transitionRule.toList.flatMap fun rule => rule.stdOffset :: rule.dst.toList.map (·.offset)
  ((types.map (·.gmtOffset) ++ recurring).map (·.second.val)).eraseDups

/-- the clocks of this place -/
def localZone : IO Zone := do
  let rules ← Std.Time.Database.defaultGetLocalZoneRules
  let ahead (seconds : Int) := (rules.timezoneAt (.ofSecondsSinceUnixEpoch (.ofInt seconds))).offset.second.val
  return .once ahead (distances rules)

/-- a boundary by chance -/
def drawBoundary : IO (List Char) := do
  let mut digits : List Char := []
  for _ in [0:32] do
    let n ← IO.rand 0 15
    digits := Nat.digitChar n :: digits
  return '=' :: '_' :: digits

/-- what goes into a message now -/
def drawStamp : IO Stamp := do
  let now ← clock
  return ⟨[← drawBoundary, ← drawBoundary, ← drawBoundary], Rfc2822.write now⟩

/-- the content of a file -/
def readFile? (path : String) : IO (Option (List UInt8)) := do
  try
    return some (← IO.FS.readBinFile path).toList
  catch _ => return none

/-- this machine as far as a command needs it that reads one file or none; whether files can be made is seen when they
are -/
def machineWorld (path? : Option String) : IO World := do
  let files ← match path? with
    | none => pure []
    | some path => do
      let content ← readFile? path
      pure (content.map fun c => (Machine.plainPath path, c)).toList
  let machine : Machine := ⟨files, [], [], ← drawStamp⟩
  return { machine.world with save := fun _ _ _ => true }

/-- the path of the configuration, if a command is to read one -/
def configPath? (options : List Opt) (args : List String) : Option String :=
  match read options args with
  | .given given => some ((given.lookup configOption.name).getD defaultConfigPath)
  | _ => none

/-! ## Ends -/

/-- says what failed -/
def report (e : CommandError) : IO UInt32 := do
  IO.eprintln e.text
  return UInt32.ofNat e.status

/-- makes the files of a history -/
def makeFiles : List (String × List UInt8) → IO UInt32
  | [] => return 0
  | (path, content) :: more => do
    try
      IO.FS.writeBinFile path content.toByteArray
      makeFiles more
    catch _ => report (.save path)

/-! ## Commands -/

/-- the end of a command, which says what failed or what it was asked, or goes on with what it did -/
def finish {α : Type} (outcome : Except CommandError (Ending α) × History) (proceed : α → History → IO UInt32) :
    IO UInt32 :=
  match outcome with
  | (.error e, _) => report e
  | (.ok (.told text), _) => do
    IO.print text
    return 0
  | (.ok (.done result), history) => proceed result history

/-- the command that exports a table -/
def exportTable (args : List String) : IO UInt32 := do
  let world ← machineWorld (configPath? ExportTable.options args)
  finish (ExportTable.start args world []) fun _ history => makeFiles history.files

/-- the milliseconds until a moment, at most a day -/
def millisUntil (now trigger : Moment) : Nat :=
  let nanos := (trigger.utcSeconds - now.utcSeconds) * Moment.nanosPerSecond + trigger.nanos - now.nanos
  min 86400000 ((nanos + 999999) / 1000000).toNat

/-- one run on a schedule; a failure is told and the schedule goes on -/
def runTask (config : Config) (path? : Option String) : IO Unit := do
  let world ← machineWorld path?
  match (Delivery.runConfig config world []).1 with
  | .ok _ => return
  | .error e => IO.eprintln e.line

/-- the loop over a schedule from a state on -/
partial def serve (config : Config) (path? : Option String) (zone : Zone) (schedule : Schedule) (s : Trigger.State) :
    IO Unit := do
  let now ← clock
  let next ← match s.phase with
    | .ready => pure (Trigger.step? zone schedule s .look)
    | .looked => pure (Trigger.step? zone schedule s (.read now))
    | .waiting trigger =>
      let millis := millisUntil now trigger
      if millis = 0 then pure (Trigger.step? zone schedule s (.due now))
      else
        IO.sleep (UInt32.ofNat millis)
        pure (some s)
    | .running _ =>
      runTask config path?
      pure (Trigger.step? zone schedule s (.finish (← clock)))
    | .ended => pure none
  match next with
  | some s => serve config path? zone schedule s
  | none => return

/-- the command that mails tables -/
def mail (args : List String) : IO UInt32 := do
  let path? := configPath? Mailer.options args
  let world ← machineWorld path?
  finish (Mailer.start args world []) fun task _ => do
    match task with
    | .finished _ => return 0
    | .scheduled config schedule =>
      serve config path? (← localZone) schedule .start
      return 0

/-- runs the command that the first argument names -/
def start (args : List String) : IO UInt32 :=
  match args with
  | "export-table" :: rest => exportTable rest
  | "table-mailer" :: rest => mail rest
  | _ => do
    IO.eprintln "error: expected export-table or table-mailer"
    return 2

end SheetPost.Main

/-- the program -/
def main (args : List String) : IO UInt32 := SheetPost.Main.start args
