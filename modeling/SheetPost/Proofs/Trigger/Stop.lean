/-
The loop after a stop. The loop looks at the flag before it reads the clock, and a stop wakes a wait, so a stop can be
missed only between the look and the end of the wait, and only for one run. From any other place no run begins.

Main statements: which runs can still begin after a stop (`begun_after_stop`); a loop that was stopped ends
(`ends_after_stop`).
-/
import SheetPost.Trigger.Loop

namespace SheetPost.Trigger

open SheetPost.Calendar

variable {zone : Zone} {schedule : Schedule} {s t u : State} {e : Event} {events more : List Event}
  {now trigger : Moment}

/-! ## One turn -/

/-- what an event does to the loop -/
inductive Turn (zone : Zone) (schedule : Schedule) (s : State) : Event → State → Prop where
  | stops : Turn zone schedule s .stop s.stop
  | quits (place : s.phase = .ready) (stopped : s.stopped = true) :
    Turn zone schedule s .look { s with phase := .ended }
  | looks (place : s.phase = .ready) (stopped : s.stopped = false) :
    Turn zone schedule s .look { s with phase := .looked }
  | plans (now trigger : Moment) (place : s.phase = .looked) (next : schedule.nextIn? zone now = some trigger) :
    Turn zone schedule s (.read now) { s with phase := .waiting trigger }
  | runsOut (now : Moment) (place : s.phase = .looked) (next : schedule.nextIn? zone now = none) :
    Turn zone schedule s (.read now) { s with phase := .ended }
  | begins (now trigger : Moment) (place : s.phase = .waiting trigger) :
    Turn zone schedule s (.due now) { s with phase := .running trigger, served := trigger :: s.served }
  | breaksOff (trigger : Moment) (place : s.phase = .waiting trigger) (news : s.news = true)
    (stopped : s.stopped = true) : Turn zone schedule s .wake { s with phase := .ended, news := false }
  | goesBack (trigger : Moment) (place : s.phase = .waiting trigger) (news : s.news = true)
    (stopped : s.stopped = false) : Turn zone schedule s .wake { s with phase := .ready, news := false }
  | returns (now trigger : Moment) (place : s.phase = .running trigger) :
    Turn zone schedule s (.finish now) { s with phase := .ready }

theorem turn_iff : Turn zone schedule s e t ↔ step? zone schedule s e = some t := by
  constructor
  · intro h
    cases h with
    | stops => rfl
    | quits place stopped => simp [step?, place, stopped]
    | looks place stopped => simp [step?, place, stopped]
    | plans now trigger place next => simp only [step?, place, next]
    | runsOut now place next => simp only [step?, place, next]
    | begins now trigger place => simp only [step?, place]
    | breaksOff trigger place news stopped => simp [step?, place, news, stopped]
    | goesBack trigger place news stopped => simp [step?, place, news, stopped]
    | returns now trigger place => simp only [step?, place]
  · intro h
    cases e with
    | stop => exact Option.some.inj h ▸ .stops
    | look =>
      simp only [step?] at h
      split at h <;> cases h
      next place =>
        by_cases hs : s.stopped = true
        · rw [if_pos hs]
          exact .quits place hs
        · rw [if_neg hs]
          exact .looks place (Bool.eq_false_iff.2 hs)
    | read now =>
      simp only [step?] at h
      split at h
      · next place =>
        split at h <;> cases h
        · next trigger next => exact .plans now trigger place next
        · next next => exact .runsOut now place next
      · cases h
    | due now =>
      simp only [step?] at h
      split at h <;> cases h
      next trigger place => exact .begins now trigger place
    | wake =>
      simp only [step?] at h
      split at h
      · next trigger place =>
        split at h <;> cases h
        next news =>
          by_cases hs : s.stopped = true
          · rw [if_pos hs]
            exact .breaksOff trigger place news hs
          · rw [if_neg hs]
            exact .goesBack trigger place news (Bool.eq_false_iff.2 hs)
      · cases h
    | finish now =>
      simp only [step?] at h
      split at h <;> cases h
      next trigger place => exact .returns now trigger place

/-- the loop can go on by itself until it has ended -/
theorem exists_turn (zone : Zone) (schedule : Schedule) (h : s.phase ≠ .ended) :
    ∃ e t, e ≠ .stop ∧ Turn zone schedule s e t := by
  cases hp : s.phase with
  | ready =>
    cases hs : s.stopped with
    | true => exact ⟨_, _, Event.noConfusion, .quits hp hs⟩
    | false => exact ⟨_, _, Event.noConfusion, .looks hp hs⟩
  | looked =>
    let now : Moment := ⟨⟨1970, 1, 1⟩, .midnight, 0, 0⟩
    cases hn : schedule.nextIn? zone now with
    | some trigger => exact ⟨_, _, Event.noConfusion, .plans now trigger hp hn⟩
    | none => exact ⟨_, _, Event.noConfusion, .runsOut now hp hn⟩
  | waiting trigger => exact ⟨_, _, Event.noConfusion, .begins trigger trigger hp⟩
  | running trigger => exact ⟨_, _, Event.noConfusion, .returns trigger trigger hp⟩
  | ended => exact absurd hp h

/-- a stop and the end of the wait can both be there, and either can come first -/
theorem wake_or_due (hp : s.phase = .waiting trigger) (hn : s.news = true) (now : Moment) :
    (∃ t, Turn zone schedule s .wake t) ∧ ∃ t, Turn zone schedule s (.due now) t := by
  refine ⟨?_, _, .begins now trigger hp⟩
  cases hs : s.stopped with
  | true => exact ⟨_, .breaksOff trigger hp hn hs⟩
  | false => exact ⟨_, .goesBack trigger hp hn hs⟩

/-! ## Several turns -/

theorem run?_cons :
    run? zone schedule s (e :: events) = (step? zone schedule s e).bind fun t => run? zone schedule t events := rfl

theorem run?_append :
    run? zone schedule s (events ++ more) = (run? zone schedule s events).bind (run? zone schedule · more) :=
  List.foldlM_append

/-- the first turn of several, and the others -/
theorem exists_turn_of_run? (h : run? zone schedule s (e :: events) = some t) :
    ∃ u, Turn zone schedule s e u ∧ run? zone schedule u events = some t := by
  rw [run?_cons, Option.bind_eq_some_iff] at h
  obtain ⟨u, hu, ht⟩ := h
  exact ⟨u, turn_iff.2 hu, ht⟩

/-- a run of the task begins -/
def Event.begins : Event → Bool
  | .due _ => true
  | _ => false

/-- the runs that begin -/
def begun (events : List Event) : Nat := events.countP Event.begins

theorem begun_append : begun (events ++ more) = begun events + begun more := List.countP_append

theorem begun_cons (e : Event) (events : List Event) : begun (e :: events) = begun [e] + begun events := by
  rw [← begun_append, List.singleton_append]

/-- a run that begins serves one trigger, and nothing else does -/
theorem Turn.served (h : Turn zone schedule s e t) : ∃ new, t.served = new ++ s.served ∧ new.length = begun [e] := by
  cases h with
  | begins now trigger place => exact ⟨[trigger], rfl, rfl⟩
  | _ => exact ⟨[], rfl, rfl⟩

theorem served_run (h : run? zone schedule s events = some t) :
    ∃ new, t.served = new ++ s.served ∧ new.length = begun events := by
  induction events generalizing s with
  | nil =>
    cases h
    exact ⟨[], rfl, rfl⟩
  | cons e events ih =>
    obtain ⟨u, hu, ht⟩ := exists_turn_of_run? h
    obtain ⟨first, hs, hf⟩ := hu.served
    obtain ⟨others, hu, ho⟩ := ih ht
    refine ⟨others ++ first, by rw [hu, hs, List.append_assoc], ?_⟩
    rw [List.length_append, hf, ho, begun_cons e events, Nat.add_comm]

theorem length_served (h : run? zone schedule .start events = some t) : t.served.length = begun events := by
  obtain ⟨new, hserved, hlength⟩ := served_run h
  rw [hserved, List.length_append, hlength]
  rfl

/-- runs that do not begin serve nothing -/
theorem served_eq_of_begun (h : run? zone schedule s events = some t) (hb : begun events = 0) :
    t.served = s.served := by
  obtain ⟨new, ht, hn⟩ := served_run h
  rw [hb, List.length_eq_zero_iff] at hn
  rw [ht, hn, List.nil_append]

/-- rounds that follow a plan are turns of the loop -/
theorem Plan.exists_run?_follow (p : Plan) (start : Moment) (n : Nat) :
    ∃ events, run? zone schedule s events = some (p.follow zone schedule start n now s) := by
  induction n generalizing now s with
  | zero => exact ⟨[], rfl⟩
  | succ n ih =>
    unfold Plan.follow
    simp only
    split
    · exact ⟨[], rfl⟩
    · split
      · next t ht =>
        obtain ⟨more, hmore⟩ := ih
        refine ⟨(p.nextEvents zone start now s).1 ++ more, ?_⟩
        rw [run?_append, ht]
        exact hmore
      · exact ⟨[], rfl⟩

theorem Plan.exists_run?_simulate (p : Plan) (start : Moment) (rounds : Nat) :
    ∃ events, run? zone schedule .start events = some (p.simulate zone schedule start rounds) := by
  unfold Plan.simulate
  split
  · obtain ⟨events, h⟩ := p.exists_run?_follow start rounds
    exact ⟨.stop :: events, h⟩
  · exact p.exists_run?_follow start rounds

/-! ## After a stop -/

namespace Phase

/-- how many runs can still begin once the loop is stopped -/
def runsLeft : Phase → Nat
  | .looked | .waiting _ => 1
  | .ready | .running _ | .ended => 0

/-- how many turns the loop can still take once it is stopped -/
def turnsLeft : Phase → Nat
  | .ended => 0
  | .ready => 1
  | .running _ => 2
  | .waiting _ => 3
  | .looked => 4

end Phase

/-- a stop is never taken back -/
theorem Turn.stopped (h : Turn zone schedule s e t) (hs : s.stopped = true) : t.stopped = true := by
  cases h with
  | stops => rfl
  | _ => exact hs

theorem Turn.runsLeft (h : Turn zone schedule s e t) (hs : s.stopped = true) :
    begun [e] + t.phase.runsLeft ≤ s.phase.runsLeft := by
  cases h with
  | stops => exact Nat.le_of_eq (Nat.zero_add _)
  | quits place _ => rw [place]; exact Nat.le_refl 0
  | looks place stopped => rw [hs] at stopped; cases stopped
  | plans now trigger place _ => rw [place]; exact Nat.le_refl 1
  | runsOut now place _ => rw [place]; exact Nat.zero_le 1
  | begins now trigger place => rw [place]; exact Nat.le_refl 1
  | breaksOff trigger place _ _ => rw [place]; exact Nat.zero_le 1
  | goesBack trigger _ _ stopped => rw [hs] at stopped; cases stopped
  | returns now trigger place => rw [place]; exact Nat.le_refl 0

theorem Turn.turnsLeft (h : Turn zone schedule s e t) (hs : s.stopped = true) (he : e ≠ .stop) :
    t.phase.turnsLeft + 1 ≤ s.phase.turnsLeft := by
  cases h with
  | stops => exact absurd rfl he
  | quits place _ => rw [place]; exact Nat.le_refl 1
  | looks place stopped => rw [hs] at stopped; cases stopped
  | plans now trigger place _ => rw [place]; exact Nat.le_refl 4
  | runsOut now place _ => rw [place]; show 1 ≤ 4; omega
  | begins now trigger place => rw [place]; exact Nat.le_refl 3
  | breaksOff trigger place _ _ => rw [place]; show 1 ≤ 3; omega
  | goesBack trigger _ _ stopped => rw [hs] at stopped; cases stopped
  | returns now trigger place => rw [place]; exact Nat.le_refl 2

theorem begun_add_runsLeft_le (hs : s.stopped = true) (h : run? zone schedule s events = some t) :
    begun events + t.phase.runsLeft ≤ s.phase.runsLeft := by
  induction events generalizing s with
  | nil =>
    cases h
    exact Nat.le_of_eq (Nat.zero_add _)
  | cons e events ih =>
    obtain ⟨u, hu, ht⟩ := exists_turn_of_run? h
    calc
      begun (e :: events) + t.phase.runsLeft = begun [e] + (begun events + t.phase.runsLeft) := by
        rw [begun_cons e events, Nat.add_assoc]
      _ ≤ begun [e] + u.phase.runsLeft := Nat.add_le_add_left (ih (hu.stopped hs) ht) _
      _ ≤ s.phase.runsLeft := hu.runsLeft hs

theorem countP_add_turnsLeft_le (hs : s.stopped = true) (h : run? zone schedule s events = some t) :
    events.countP (· != .stop) + t.phase.turnsLeft ≤ s.phase.turnsLeft := by
  induction events generalizing s with
  | nil =>
    cases h
    exact Nat.le_of_eq (Nat.zero_add _)
  | cons e events ih =>
    obtain ⟨u, hu, ht⟩ := exists_turn_of_run? h
    have hothers := ih (hu.stopped hs) ht
    by_cases he : e = .stop
    · subst he
      cases hu
      rw [List.countP_cons_of_neg (by simp)]
      exact hothers
    · have hfirst := hu.turnsLeft hs he
      rw [List.countP_cons_of_pos (by simpa using he)]
      omega

/-- an ended loop stays ended, and begins no run -/
theorem begun_of_ended (hs : s.phase = .ended) (h : run? zone schedule s events = some t) : begun events = 0 := by
  induction events generalizing s with
  | nil => rfl
  | cons e events ih =>
    obtain ⟨u, hu, ht⟩ := exists_turn_of_run? h
    obtain ⟨rfl, hu, -⟩ := step?_ended hs (turn_iff.1 hu)
    rw [begun_cons .stop events, ih hu ht]
    rfl

/-- **A loop that is stopped ends.** It takes four turns at most, whatever stops come on top, and it is never stuck
before it has ended. -/
theorem ends_after_stop (hs : s.stopped = true) (h : run? zone schedule s events = some t) :
    events.countP (· != .stop) + t.phase.turnsLeft ≤ 4 ∧
      (t.phase ≠ .ended → ∃ e u, e ≠ .stop ∧ step? zone schedule t e = some u) := by
  have hmax : s.phase.turnsLeft ≤ 4 := by
    cases s.phase <;> simp [Phase.turnsLeft]
  refine ⟨Nat.le_trans (countP_add_turnsLeft_le hs h) hmax, fun ht => ?_⟩
  obtain ⟨e, u, he, hu⟩ := exists_turn zone schedule ht
  exact ⟨e, u, he, turn_iff.1 hu⟩

/-- **A stop is honoured.** If it comes while the loop is about to look for one or while a run is in progress, no
further run begins, so what is served is what was served by then; if it comes between a look and the end of the wait, at
most one more run begins; and no run begins after the end. -/
theorem begun_after_stop {before : List Event} (hs : run? zone schedule .start before = some s) :
    s.served.length = begun before ∧
    (∀ rest t, run? zone schedule s (.stop :: rest) = some t →
      ((s.phase = .ready ∨ ∃ trigger, s.phase = .running trigger) → begun rest = 0 ∧ t.served = s.served) ∧
      ((s.phase = .looked ∨ ∃ trigger, s.phase = .waiting trigger) → begun rest ≤ 1)) ∧
    (s.phase = .ended → ∀ rest t, run? zone schedule s rest = some t → begun rest = 0 ∧ t.served = s.served) := by
  refine ⟨length_served hs, fun rest t ht => ?stopped, fun hp rest t ht => ?ended⟩
  case stopped =>
    obtain ⟨u, hu, ht⟩ := exists_turn_of_run? ht
    cases hu
    have hbegun := begun_add_runsLeft_le rfl ht
    change begun rest + t.phase.runsLeft ≤ s.phase.runsLeft at hbegun
    constructor
    · intro hp
      have hnone : s.phase.runsLeft = 0 := by
        rcases hp with hp | ⟨trigger, hp⟩ <;> rw [hp] <;> rfl
      have hb : begun rest = 0 := by omega
      have hserved : t.served = s.stop.served := served_eq_of_begun ht hb
      exact ⟨hb, hserved⟩
    · intro hp
      have hone : s.phase.runsLeft = 1 := by
        rcases hp with hp | ⟨trigger, hp⟩ <;> rw [hp] <;> rfl
      omega
  case ended =>
    have hb := begun_of_ended hp ht
    exact ⟨hb, served_eq_of_begun ht hb⟩

/-- a second of some minute -/
def second (n : Nat) : Moment := ⟨⟨2026, 10, 18⟩, ⟨10, 0, n⟩, 0, 0⟩

/-- a stop at the end of the first run -/
theorem begun_after_stop_first_run :
    ∃ s, run? (.fixed 0) (.every ⟨1, 0⟩) .start [.look, .read (second 0), .due (second 1)] = some s ∧
      s.phase = .running (second 1) ∧ s.served = [second 1] ∧
      ∀ rest t, run? (.fixed 0) (.every ⟨1, 0⟩) s (.stop :: rest) = some t →
        begun rest = 0 ∧ t.served = [second 1] := by
  have hs : run? (.fixed 0) (.every ⟨1, 0⟩) .start [.look, .read (second 0), .due (second 1)] =
      some ⟨.running (second 1), false, false, [second 1]⟩ := by decide +kernel
  refine ⟨_, hs, rfl, rfl, fun rest t ht => ?_⟩
  exact ((begun_after_stop hs).2.1 rest t ht).1 (.inr ⟨_, rfl⟩)

end SheetPost.Trigger
