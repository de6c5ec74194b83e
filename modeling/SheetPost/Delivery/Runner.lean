/-
A runner does one run at a time: a call that comes while a run is in progress does nothing at all. Each run has a pool
of its own, which is closed at the end of the run, however it ends.

Calls of one runner can come at any time, and their steps can come in any order (`Calls.step?`); what keeps the runs
apart is the guard, which a call takes when it begins and gives back when it returns.
-/
import SheetPost.Delivery.Run
import SheetPost.Pool.Basic

namespace SheetPost.Delivery

/-! ## One run of a configuration -/

/-- a run from the mail server's settings to the closed pool -/
def runConfig (c : Config) : Act RunError Report := do
  Act.attempt (.configure c.server.host c.server.port) (.transport .server) fun w h => w.configure h c.server
  let _ ← (Pool.connect c.database).mapError .connection
  Act.endingWith (deliverAll c.specs) .close

/-! ## Scripts -/

def deliverSteps (report : Report) (s : Spec) : (deliver report s).Stepwise :=
  (Act.Stepwise.foldlM (fun _ _ => (Act.Stepwise.step _ _).bind fun _ => .pure _) s.files _).bind fun _ =>
    (Act.Stepwise.step _ _).bind fun _ =>
      .foldlM (fun _ _ => (Act.Stepwise.step _ _).bind fun _ => .pure _) s.recipients _

def deliverAllSteps (specs : List Spec) : (deliverAll specs).Stepwise := .foldlM deliverSteps specs _

def runSteps (c : Config) : (runConfig c).Stepwise :=
  (Act.Stepwise.attempt _ _ _).bind fun _ => ((Pool.connectSteps c.database).mapError .connection).bind fun _ =>
    (deliverAllSteps c.specs).endingWith .close

/-! ## The guard -/

/-- what a call of a runner comes to -/
inductive CallResult where
  | skipped
  | finished (result : Except RunError Report)

/-- a runner: the call that holds the guard, if one does -/
structure Runner where
  holder : Option Nat
deriving DecidableEq, Repr

namespace Runner

/-- nobody runs -/
def idle : Runner := ⟨none⟩

/-- a call begins: it takes the guard if that is free -/
def begin (r : Runner) (call : Nat) : Runner × Bool :=
  match r.holder with
  | none => (⟨some call⟩, true)
  | some _ => (r, false)

/-- a call ends, and gives the guard back if it holds it -/
def finish (r : Runner) (call : Nat) : Runner := if r.holder = some call then idle else r

end Runner

/-! ## Calls -/

/-- how far a call is -/
inductive Progress where
  | running (left : Script RunError Report)
  | returned (result : CallResult)

/-- the calls of one runner, numbered as they began, and their steps, the last one first, each with its call -/
structure Calls where
  runner : Runner
  progress : List Progress
  log : List (Nat × Event)

/-- what can happen next -/
inductive Move where
  /-- one more call begins -/
  | begin
  /-- a call does its next step -/
  | act (call : Nat)
  /-- a call returns that has nothing left to do -/
  | finish (call : Nat)
deriving DecidableEq, Repr

namespace Calls

/-- before the first call -/
def idle : Calls := ⟨.idle, [], []⟩

/-- the steps of all calls -/
def history (s : Calls) : History := s.log.map (·.2)

/-- the calls after a move, if the move is possible -/
def step? (c : Config) (w : World) (s : Calls) : Move → Option Calls
  | .begin =>
    let (runner, taken) := s.runner.begin s.progress.length
    let first := if taken then .running (runSteps c).script else .returned .skipped
    some { s with runner := runner, progress := s.progress ++ [first] }
  | .act call =>
    match s.progress[call]? with
    | some (.running (.step e succeeds rest)) =>
      some { s with
        progress := s.progress.set call (.running (rest w s.history))
        log := (call, ⟨e, succeeds w s.history⟩) :: s.log }
    | _ => none
  | .finish call =>
    match s.progress[call]? with
    | some (.running (.done result)) =>
      some { s with
        runner := s.runner.finish call
        progress := s.progress.set call (.returned (.finished result)) }
    | _ => none

/-- the calls after several moves -/
def run? (c : Config) (w : World) (s : Calls) (moves : List Move) : Option Calls := moves.foldlM (step? c w) s

/-- the calls after a move; nothing happens if it is not possible -/
def move (c : Config) (w : World) (m : Move) (s : Calls) : Calls := (s.step? c w m).getD s

/-- a call goes on with what is left of it up to a step that it waits for, or else returns -/
def goOn (c : Config) (w : World) (call : Nat) (waits : Step → Bool) : Script RunError Report → Calls → Calls
  | .done _, s => s.move c w (.finish call)
  | .step e _ rest, s =>
    if waits e then s else goOn c w call waits (rest w s.history) (s.move c w (.act call))

/-- a call goes on, if it is in progress -/
def proceed (c : Config) (w : World) (call : Nat) (waits : Step → Bool) (s : Calls) : Calls :=
  match s.progress[call]? with
  | some (.running left) => goOn c w call waits left s
  | _ => s

/-- what calls that returned came to, in the order in which they began -/
def results (s : Calls) : List CallResult :=
  s.progress.filterMap fun
    | .returned result => some result
    | .running _ => none

/-- opening a pool is the first thing that a call waits for, so that another call can come in between -/
def opensPool : Step → Bool
  | .connect _ => true
  | _ => false

/-- two calls at the same time: the second one begins as soon as the first one waits or has returned -/
def pair (c : Config) (w : World) : Calls :=
  let first := (idle.move c w .begin).proceed c w 0 opensPool
  ((first.move c w .begin).proceed c w 0 fun _ => false).proceed c w 1 fun _ => false

end Calls

/-- a run by itself -/
def alone (c : Config) (w : World) : CallResult := .finished (runConfig c w []).1

/-- what two calls of one runner at the same time come to -/
def together (c : Config) (w : World) : List CallResult := (Calls.pair c w).results

end SheetPost.Delivery
