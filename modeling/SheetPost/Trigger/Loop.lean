/-
The loop that runs a task on a schedule, by the clocks of a zone. It looks for a stop, reads the clock, waits for the
next trigger and runs the task, one run at a time. A stop may come at any moment: it is seen at the next look, and it
wakes a wait; if the wait ends at the same moment, either may come first.

Main statement: an ended loop stays ended (`step?_ended`).
-/
import SheetPost.Schedule.Basic

namespace SheetPost.Trigger

open SheetPost.Calendar

/-- where the loop is -/
inductive Phase where
  /-- about to look for a stop -/
  | ready
  /-- about to read the clock -/
  | looked
  | waiting (trigger : Moment)
  | running (trigger : Moment)
  | ended
deriving DecidableEq, Repr

/-- the loop, and the triggers it has served so far, the last one first -/
structure State where
  phase : Phase
  stopped : Bool
  /-- no wait has been woken since the last stop -/
  news : Bool
  served : List Moment
deriving DecidableEq, Repr

/-- what happens to the loop; times are what the clock shows -/
inductive Event where
  /-- somebody asks the loop to stop -/
  | stop
  /-- the loop looks for a stop -/
  | look
  /-- the loop reads the clock and finds the next trigger -/
  | read (now : Moment)
  /-- the wait is over -/
  | due (now : Moment)
  /-- the wait is broken off because of a stop -/
  | wake
  /-- the task is over -/
  | finish (now : Moment)
deriving DecidableEq, Repr

namespace State

/-- before the first look -/
def start : State := ⟨.ready, false, false, []⟩

/-- after a stop -/
def stop (s : State) : State := { s with stopped := true, news := true }

/-- the runs in progress -/
def active (s : State) : Nat :=
  match s.phase with
  | .running _ => 1
  | _ => 0

end State

/-- the loop after an event, if the event can happen now -/
def step? (zone : Zone) (schedule : Schedule) (s : State) : Event → Option State
  | .stop => some s.stop
  | .look =>
    match s.phase with
    | .ready => some { s with phase := if s.stopped then .ended else .looked }
    | _ => none
  | .read now =>
    match s.phase with
    | .looked =>
      match schedule.nextIn? zone now with
      | some trigger => some { s with phase := .waiting trigger }
      | none => some { s with phase := .ended }
    | _ => none
  | .due _ =>
    match s.phase with
    | .waiting trigger => some { s with phase := .running trigger, served := trigger :: s.served }
    | _ => none
  | .wake =>
    match s.phase with
    | .waiting _ =>
      if s.news then some { s with phase := if s.stopped then .ended else .ready, news := false } else none
    | _ => none
  | .finish _ =>
    match s.phase with
    | .running _ => some { s with phase := .ready }
    | _ => none

/-- the loop after several events -/
def run? (zone : Zone) (schedule : Schedule) (s : State) (events : List Event) : Option State :=
  events.foldlM (step? zone schedule) s

theorem step?_ended {zone : Zone} {schedule : Schedule} {s t : State} {e : Event} (hs : s.phase = .ended)
    (h : step? zone schedule s e = some t) : e = .stop ∧ t.phase = .ended ∧ t.served = s.served := by
  cases e <;> simp only [step?, hs, Option.some.injEq, reduceCtorEq] at h
  subst h
  exact ⟨rfl, hs, rfl⟩

/-! ## Runs that are planned ahead -/

/-- a task of a fixed length, and when a stop comes -/
structure Plan where
  taskMillis : Nat
  /-- before the loop starts -/
  stopFirst : Bool
  /-- so long after the start -/
  stopAtMillis : Option Nat
  /-- at the end of that run -/
  stopAfter : Option Nat
deriving DecidableEq, Repr

namespace Plan

/-- later by some milliseconds -/
def later (zone : Zone) (now : Moment) (millis : Nat) : Moment :=
  (zone.add? now (millis / 1000) (millis % 1000 * 1000000)).getD now

/-- the stop that the clock brings comes before a moment -/
def stopsBefore (p : Plan) (zone : Zone) (start trigger : Moment) : Bool :=
  match p.stopAtMillis with
  | some millis => decide ((later zone start millis).before trigger)
  | none => false

/-- what happens next, and the time then -/
def nextEvents (p : Plan) (zone : Zone) (start now : Moment) (s : State) : List Event × Moment :=
  match s.phase with
  | .ready => (if s.stopped then [.look] else [.look, .read now], now)
  | .looked => ([.read now], now)
  | .waiting trigger =>
    if s.news then ([.wake], now)
    else if p.stopsBefore zone start trigger then ([.stop, .wake], now)
    else ([.due trigger], trigger)
  | .running _ =>
    let done := later zone now p.taskMillis
    (if p.stopAfter = some s.served.length then [.stop, .finish done] else [.finish done], done)
  | .ended => ([], now)

/-- the loop after at most so many rounds -/
def follow (p : Plan) (zone : Zone) (schedule : Schedule) (start : Moment) : Nat → Moment → State → State
  | 0, _, s => s
  | n + 1, now, s =>
    let (events, now) := p.nextEvents zone start now s
    match events with
    | [] => s
    | events =>
      match run? zone schedule s events with
      | some s => follow p zone schedule start n now s
      | none => s

/-- the loop from its start -/
def simulate (p : Plan) (zone : Zone) (schedule : Schedule) (start : Moment) (rounds : Nat) : State :=
  p.follow zone schedule start rounds start (if p.stopFirst then State.start.stop else .start)

end Plan

end SheetPost.Trigger
