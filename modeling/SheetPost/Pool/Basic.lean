/-
Pools of connections: which driver a URL asks for, and opening a pool for it. A pool that does not answer is closed
again at once.
-/
import SheetPost.Config.ConnectionUrl
import SheetPost.Sqlite.Location
import SheetPost.World.Script

namespace SheetPost.Pool

open SheetPost.Text SheetPost.Relation

/-- the drivers that there are -/
inductive Driver where
  | postgres
  | mysql
  | sqlite
deriving DecidableEq, Repr

/-- the kind of a URL: what stands before its first colon -/
def scheme (url : String) : String := String.ofList (url.toList.takeWhile (· != ':'))

/-- the driver for a kind of URL -/
def Driver.ofScheme? (scheme : String) : Option Driver :=
  [("postgres", Driver.postgres), ("postgresql", .postgres), ("mysql", .mysql), ("mariadb", .mysql),
    ("sqlite", .sqlite)].lookup scheme

/-- tries a connection, and closes the pool if there is no answer -/
def ping : Act SourceError Unit := fun w h =>
  match Act.attempt .ping (SourceError.driver none) World.ping w h with
  | (.ok a, h') => (.ok a, h')
  | (.error e, h') => (.error e, ⟨.close, true⟩ :: h')

/-- the driver can make sense of the rest of a URL; what servers there are is not known here -/
def Driver.reads (driver : Driver) (url : String) : Bool :=
  match driver with
  | .sqlite => (Sqlite.Location.parse? url).isSome
  | _ => true

/-- opens a pool for a URL -/
def openUrl (url : String) : Act SourceError Driver :=
  match Driver.ofScheme? (scheme url) with
  | none => Act.fail (.scheme (scheme url))
  | some driver => do
    if !driver.reads url then Act.fail (.driver none)
    Act.attempt (.connect url) (SourceError.driver none) fun w h => w.connect h url
    ping
    return driver

/-- opens a pool for the database of a configuration -/
def connect (d : Database) : Act SourceError Driver := do
  let url ← Act.ofExcept (d.connectionUrl.mapError SourceError.settings)
  openUrl url

/-! ## Scripts -/

def pingSteps : ping.Stepwise where
  script := .step .ping (fun w h => w.ping h) fun w h =>
    if w.ping h then .done (.ok ())
    else .step .close (fun _ _ => true) fun _ _ => .done (.error (.driver none))
  act_script := by
    funext w h
    cases hp : w.ping h <;> simp [Script.act, ping, Act.attempt, Act.step, Act.succeeded, hp]

/-- a pool for a URL that makes sense to its driver -/
def openSteps (driver : Driver) (url : String) : Act.Stepwise (do
    Act.attempt (.connect url) (SourceError.driver none) fun w h => w.connect h url
    ping
    return driver) :=
  (Act.Stepwise.attempt _ _ _).bind fun _ => pingSteps.bind fun _ => .pure driver

def openUrlSteps (url : String) : (openUrl url).Stepwise where
  script :=
    match Driver.ofScheme? (scheme url) with
    | none => .done (.error (.scheme (scheme url)))
    | some driver => if driver.reads url then (openSteps driver url).script else .done (.error (.driver none))
  act_script := by
    unfold openUrl
    cases Driver.ofScheme? (scheme url) with
    | none => rfl
    | some driver =>
      simp only
      cases driver.reads url with
      | false => rfl
      | true => exact (openSteps driver url).act_script

def connectSteps (d : Database) : (connect d).Stepwise := (Act.Stepwise.ofExcept _).bind openUrlSteps

end SheetPost.Pool
