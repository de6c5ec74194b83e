/-
The triggers that the loop serves, in time that never goes back. Each one is found from a reading of the clock after all
earlier runs are over, and the next moment of a schedule is later than the reading it is found from, if the schedule
suits the zone of the clock. So no trigger is served twice, and what falls due during a run is left out.

Main statement: `served_once`.
-/
import Mathlib.Data.List.Induction
import SheetPost.Proofs.Schedule.Later
import SheetPost.Proofs.Trigger.Stop

namespace SheetPost.Trigger

open SheetPost.Calendar

variable {zone : Zone} {schedule : Schedule} {s t u : State} {e : Event} {events : List Event} {trigger : Moment}

/-! ## Clocks -/

/-- what the clock shows at an event -/
def Event.reading? : Event → Option Moment
  | .read now | .due now | .finish now => some now
  | .stop | .look | .wake => none

def readings (events : List Event) : List Moment := events.filterMap Event.reading?

/-- the clock never goes back, and no wait ends before its trigger -/
structure Timely (zone : Zone) (schedule : Schedule) (events : List Event) : Prop where
  forward : (readings events).Pairwise fun earlier later => ¬ later.before earlier
  patient : ∀ pre now post u trigger, events = pre ++ .due now :: post → run? zone schedule .start pre = some u →
    u.phase = .waiting trigger → ¬ now.before trigger

theorem readings_append (events more : List Event) : readings (events ++ more) = readings events ++ readings more :=
  List.filterMap_append

theorem mem_readings {now : Moment} (he : e.reading? = some now) (h : e ∈ events) : now ∈ readings events :=
  List.mem_filterMap.2 ⟨e, h, he⟩

theorem Timely.init {more : List Event} (h : Timely zone schedule (events ++ more)) : Timely zone schedule events where
  forward := (List.pairwise_append.1 (readings_append events more ▸ h.forward)).1
  patient pre now post u trigger he := h.patient pre now (post ++ more) u trigger (by simp [he])

/-- what was read before a reading is not later -/
theorem Timely.not_before {pre post : List Event} {now r : Moment} (h : Timely zone schedule (pre ++ .read now :: post))
    (hr : r ∈ readings pre) : ¬ now.before r := by
  have hf := h.forward
  rw [readings_append] at hf
  exact (List.pairwise_append.1 hf).2.2 r hr now (mem_readings rfl List.mem_cons_self)

theorem not_before_self (a : Moment) : ¬ a.before a := by
  unfold Moment.before
  omega

theorem before_of_not_before {a b c : Moment} (hab : ¬ b.before a) (hbc : b.before c) : a.before c := by
  unfold Moment.before at *
  omega

/-! ## Where a wait comes from -/

theorem exists_turn_of_run?_concat (h : run? zone schedule s (events ++ [e]) = some t) :
    ∃ u, run? zone schedule s events = some u ∧ Turn zone schedule u e t := by
  rw [run?_append, Option.bind_eq_some_iff] at h
  obtain ⟨u, hu, ht⟩ := h
  obtain ⟨v, hv, ht⟩ := exists_turn_of_run? ht
  cases ht
  exact ⟨u, hu, hv⟩

/-- a wait goes back to a reading of the clock with nothing but stops since -/
theorem exists_read_of_waiting (h : run? zone schedule .start events = some t) (hp : t.phase = .waiting trigger) :
    ∃ pre r gap, events = pre ++ .read r :: gap ∧ (∀ e ∈ gap, e = .stop) ∧ schedule.nextIn? zone r = some trigger := by
  induction events using List.reverseRecOn generalizing t with
  | nil =>
    cases h
    cases hp
  | append_singleton events e ih =>
    obtain ⟨u, hu, ht⟩ := exists_turn_of_run?_concat h
    cases ht with
    | stops =>
      obtain ⟨pre, r, gap, rfl, hgap, hr⟩ := ih hu hp
      refine ⟨pre, r, gap ++ [.stop], by simp, fun e he => ?_, hr⟩
      rcases List.mem_append.1 he with he | he
      · exact hgap e he
      · exact List.mem_singleton.1 he
    | plans now trigger' _ next =>
      cases hp
      exact ⟨events, now, [], rfl, by simp, next⟩
    | _ => cases hp

/-! ## Runs that are over -/

def Event.finishes : Event → Bool
  | .finish _ => true
  | _ => false

/-- the runs that are over -/
def finished (events : List Event) : Nat := events.countP Event.finishes

theorem finished_append (events more : List Event) : finished (events ++ more) = finished events + finished more :=
  List.countP_append

theorem finished_cons (e : Event) (events : List Event) : finished (e :: events) = finished [e] + finished events := by
  rw [← finished_append, List.singleton_append]

/-- a run is in progress from its beginning to its end -/
theorem Turn.active (h : Turn zone schedule s e t) : begun [e] + s.active = finished [e] + t.active := by
  unfold State.active
  cases h with
  | stops => rfl
  | quits place _ | looks place _ | plans _ _ place _ | runsOut _ place _ | begins _ _ place | breaksOff _ place _ _
  | goesBack _ place _ _ | returns _ _ place =>
    rw [place]
    rfl

theorem begun_add_active (h : run? zone schedule s events = some t) :
    begun events + s.active = finished events + t.active := by
  induction events generalizing s with
  | nil =>
    cases h
    rfl
  | cons e events ih =>
    obtain ⟨u, hu, ht⟩ := exists_turn_of_run? h
    calc
      begun (e :: events) + s.active = begun events + (begun [e] + s.active) := by
        rw [begun_cons e events, Nat.add_comm (begun [e]), Nat.add_assoc]
      _ = finished [e] + (begun events + u.active) := by rw [hu.active, Nat.add_left_comm]
      _ = finished (e :: events) + t.active := by rw [ih ht, finished_cons e events, Nat.add_assoc]

theorem active_le (s : State) : s.active ≤ 1 := by
  unfold State.active
  split
  · exact Nat.le_refl 1
  · exact Nat.zero_le 1

/-- the runs that began are over but for one at most -/
theorem finished_le_begun (h : run? zone schedule .start events = some t) :
    finished events ≤ begun events ∧ begun events ≤ finished events + 1 := by
  have hcount := begun_add_active h
  have hone := active_le t
  change begun events + 0 = _ at hcount
  omega

/-! ## Served triggers -/

/-- how a trigger comes to be served: found from a reading of the clock, waited for, and due -/
structure Served (zone : Zone) (schedule : Schedule) (events pre gap : List Event) (r now m : Moment)
    (post : List Event) : Prop where
  parts : events = pre ++ .read r :: gap ++ .due now :: post
  gap : ∀ e ∈ gap, e = .stop
  next : schedule.nextIn? zone r = some m

theorem Served.append {pre gap post : List Event} {r now m : Moment}
    (h : Served zone schedule events pre gap r now m post) (more : List Event) :
    Served zone schedule (events ++ more) pre gap r now m (post ++ more) := by
  refine ⟨?_, h.gap, h.next⟩
  rw [h.parts]
  simp

/-- in a wait no run begins and none is over -/
theorem counts_wait (r : Moment) {gap : List Event} (h : ∀ e ∈ gap, e = .stop) :
    begun (.read r :: gap) = 0 ∧ finished (.read r :: gap) = 0 := by
  constructor <;> refine List.countP_eq_zero.2 fun e he => ?_
  all_goals
    rcases List.mem_cons.1 he with rfl | he
    · exact Bool.false_ne_true
    · rw [h e he]
      exact Bool.false_ne_true

theorem counts_of_waiting {pre gap : List Event} {r : Moment} (hgap : ∀ e ∈ gap, e = .stop)
    (h : run? zone schedule .start (pre ++ .read r :: gap) = some t) (hp : t.phase = .waiting trigger) :
    begun pre = t.served.length ∧ finished pre = t.served.length := by
  obtain ⟨hb, hf⟩ := counts_wait r hgap
  have hserved := length_served h
  have hcount := begun_add_active h
  have hactive : t.active = 0 := by
    unfold State.active
    rw [hp]
  rw [begun_append, hb] at hserved
  rw [begun_append, finished_append, hb, hf, hactive] at hcount
  change begun pre + 0 + 0 = _ at hcount
  omega

/-- the trigger of a run is found after all earlier runs are over -/
theorem exists_served {k : Nat} {m : Moment} (h : run? zone schedule .start events = some t)
    (hk : t.served.reverse[k]? = some m) :
    ∃ pre gap r now post, Served zone schedule events pre gap r now m post ∧ begun pre = k ∧ finished pre = k := by
  induction events using List.reverseRecOn generalizing t with
  | nil =>
    cases h
    cases hk
  | append_singleton events e ih =>
    obtain ⟨u, hu, ht⟩ := exists_turn_of_run?_concat h
    have hearlier (hk : u.served.reverse[k]? = some m) : ∃ pre gap r now post,
        Served zone schedule (events ++ [e]) pre gap r now m post ∧ begun pre = k ∧ finished pre = k := by
      obtain ⟨pre, gap, r, now, post, hs, hcount⟩ := ih hu hk
      exact ⟨pre, gap, r, now, post ++ [e], hs.append [e], hcount⟩
    cases ht with
    | begins now trigger place =>
      -- the trigger is the new one or was served before
      rw [List.reverse_cons] at hk
      rcases Nat.lt_or_ge k u.served.reverse.length with hlt | hge
      · rw [List.getElem?_append_left hlt] at hk
        exact hearlier hk
      · rw [List.getElem?_append_right hge, List.getElem?_singleton] at hk
        have hlast : k = u.served.reverse.length ∧ trigger = m := by
          split at hk
          · exact ⟨by omega, Option.some.inj hk⟩
          · cases hk
        obtain ⟨hlength, rfl⟩ := hlast
        obtain ⟨pre, r, gap, he, hgap, hr⟩ := exists_read_of_waiting hu place
        subst he
        rw [hlength, List.length_reverse]
        exact ⟨pre, gap, r, now, [], ⟨rfl, hgap, hr⟩, counts_of_waiting hgap hu place⟩
    | _ => exact hearlier hk

/-- what is served lies behind the clock -/
theorem exists_reading_of_served {m : Moment} (hc : Timely zone schedule events)
    (h : run? zone schedule .start events = some t) (hm : m ∈ t.served) : ∃ r ∈ readings events, ¬ r.before m := by
  induction events using List.reverseRecOn generalizing t with
  | nil =>
    cases h
    cases hm
  | append_singleton events e ih =>
    obtain ⟨u, hu, ht⟩ := exists_turn_of_run?_concat h
    have hearlier (hm : m ∈ u.served) : ∃ r ∈ readings (events ++ [e]), ¬ r.before m := by
      obtain ⟨r, hr, hrm⟩ := ih hc.init hu hm
      exact ⟨r, by rw [readings_append]; exact List.mem_append_left _ hr, hrm⟩
    cases ht with
    | begins now trigger place =>
      rcases List.mem_cons.1 hm with rfl | hm
      · exact ⟨now, mem_readings rfl List.mem_concat_self, hc.patient events now [] u _ rfl hu place⟩
      · exact hearlier hm
    | _ => exact hearlier hm

/-- a trigger that is found is later than what is served by then -/
theorem before_of_waiting {text : String} {m : Moment} (hz : schedule.Suits zone)
    (hs : Schedule.parse text = .ok schedule) (hc : Timely zone schedule events)
    (h : run? zone schedule .start events = some t) (hp : t.phase = .waiting trigger) (hm : m ∈ t.served) :
    m.before trigger := by
  obtain ⟨pre, r, gap, rfl, hgap, hr⟩ := exists_read_of_waiting h hp
  obtain ⟨b, hb, hbm⟩ := exists_reading_of_served hc h hm
  have hgone : readings gap = [] := List.filterMap_eq_nil_iff.2 fun e he => by rw [hgap e he]; rfl
  -- the last reading is `r`, since nothing is read between it and the wait
  have hbr : ¬ r.before b := by
    rw [readings_append, List.mem_append] at hb
    rcases hb with hb | hb
    · exact hc.not_before hb
    · change b ∈ r :: readings gap at hb
      rw [hgone, List.mem_singleton] at hb
      rw [hb]
      exact not_before_self r
  exact before_of_not_before hbm (before_of_not_before hbr (Schedule.before_nextIn? hz hs hr))

theorem served_pairwise {text : String} (hz : schedule.Suits zone) (hs : Schedule.parse text = .ok schedule)
    (hc : Timely zone schedule events) (h : run? zone schedule .start events = some t) :
    t.served.Pairwise fun later earlier => earlier.before later := by
  induction events using List.reverseRecOn generalizing t with
  | nil =>
    cases h
    exact List.Pairwise.nil
  | append_singleton events e ih =>
    obtain ⟨u, hu, ht⟩ := exists_turn_of_run?_concat h
    have hearlier := ih hc.init hu
    cases ht with
    | begins now trigger place =>
      exact List.Pairwise.cons (fun m hm => before_of_waiting hz hs hc.init hu place hm) hearlier
    | _ => exact hearlier

/-- the loop ends by itself only when no trigger is left -/
theorem exists_read_of_ended (h : run? zone schedule .start events = some t) (hp : t.phase = .ended)
    (hn : t.stopped = false) : ∃ pre now, events = pre ++ [.read now] ∧ schedule.nextIn? zone now = none := by
  rcases List.eq_nil_or_concat events with rfl | ⟨pre, e, rfl⟩
  · cases h
    cases hp
  · rw [List.concat_eq_append] at *
    obtain ⟨u, -, ht⟩ := exists_turn_of_run?_concat h
    cases ht with
    | stops => cases hn
    | runsOut now place next => exact ⟨pre, now, rfl, next⟩
    | quits _ stopped | breaksOff _ _ _ stopped =>
      rw [show u.stopped = false from hn] at stopped
      cases stopped
    | _ => cases hp

/-- **Each trigger is served once at most, and what falls due during a run is left out.** For a schedule that was read
and suits the zone, in time that never goes back and with waits that never end early: the triggers served are strictly
increasing; the trigger of a run is the next moment of the schedule after a reading of the clock that is taken when all
earlier runs are over, so it is later than the end of each of them; a run is over before the next one begins; and if
nobody stops the loop, it ends only when the schedule has no next moment. -/
theorem served_once {text : String} (hz : schedule.Suits zone) (hs : Schedule.parse text = .ok schedule)
    (h : run? zone schedule .start events = some t) (hc : Timely zone schedule events) :
    t.served.Pairwise (fun later earlier => earlier.before later) ∧
    (∀ k m, t.served.reverse[k]? = some m → ∃ pre gap r now post,
      Served zone schedule events pre gap r now m post ∧ begun pre = k ∧ finished pre = k ∧
        ∀ earlier, .finish earlier ∈ pre → earlier.before m) ∧
    (∀ pre post, events = pre ++ post → finished pre ≤ begun pre ∧ begun pre ≤ finished pre + 1) ∧
    (t.phase = .ended → t.stopped = false →
      ∃ pre now, events = pre ++ [.read now] ∧ schedule.nextIn? zone now = none) := by
  refine ⟨served_pairwise hz hs hc h, fun k m hk => ?found, fun pre post he => ?apart, exists_read_of_ended h⟩
  case found =>
    obtain ⟨pre, gap, r, now, post, hserved, hbegun, hfinished⟩ := exists_served h hk
    refine ⟨pre, gap, r, now, post, hserved, hbegun, hfinished, fun earlier he' => ?_⟩
    have hc : Timely zone schedule (pre ++ .read r :: (gap ++ .due now :: post)) := by
      rw [← List.cons_append, ← List.append_assoc, ← hserved.parts]
      exact hc
    exact before_of_not_before (hc.not_before (mem_readings rfl he')) (Schedule.before_nextIn? hz hs hserved.next)
  case apart =>
    rw [he, run?_append, Option.bind_eq_some_iff] at h
    obtain ⟨u, hu, -⟩ := h
    exact finished_le_begun hu

/-- a schedule that names every second -/
def everySecond : Schedule :=
  .cron "* * * * * *" ⟨Cron.Unit.second.all, Cron.Unit.minute.all, Cron.Unit.hour.all, Cron.Unit.dayOfMonth.all,
    Cron.Unit.month.all, Cron.Unit.dayOfWeek.all, Cron.Unit.year.all⟩

/-- a run that takes two seconds, and the next one -/
def slow : List Event :=
  [.look, .read (second 0), .due (second 1), .finish (second 3), .look, .read (second 3), .due (second 4)]

theorem timely_slow : Timely (.fixed 0) everySecond slow where
  forward := by decide
  patient := by
    have hfirst : run? (.fixed 0) everySecond .start [.look, .read (second 0)] =
        some ⟨.waiting (second 1), false, false, []⟩ := by decide +kernel
    have hother : run? (.fixed 0) everySecond .start
        [.look, .read (second 0), .due (second 1), .finish (second 3), .look, .read (second 3)] =
        some ⟨.waiting (second 4), false, false, [second 1]⟩ := by decide +kernel
    intro pre now post u trigger he hu hp
    rcases pre with _ | ⟨a, _ | ⟨b, _ | ⟨c, _ | ⟨d, _ | ⟨e, _ | ⟨f, _ | ⟨g, pre⟩⟩⟩⟩⟩⟩⟩ <;>
      simp [slow] at he
    · obtain ⟨rfl, rfl, rfl, -⟩ := he
      rw [hfirst] at hu
      cases hu
      cases hp
      decide
    · obtain ⟨rfl, rfl, rfl, rfl, rfl, rfl, rfl, -⟩ := he
      rw [hother] at hu
      cases hu
      cases hp
      decide

/-- what falls due in the second and third second is left out -/
theorem served_once_slow :
    everySecond.Suits (.fixed 0) ∧ Schedule.parse "* * * * * *" = .ok everySecond ∧
      run? (.fixed 0) everySecond .start slow = some ⟨.running (second 4), false, false, [second 4, second 1]⟩ ∧
      Timely (.fixed 0) everySecond slow ∧ (second 1).before (second 4) ∧
      ∃ pre gap r now post, Served (.fixed 0) everySecond slow pre gap r now (second 4) post ∧ begun pre = 1 ∧
        finished pre = 1 ∧ ∀ earlier, .finish earlier ∈ pre → earlier.before (second 4) := by
  have hz : everySecond.Suits (.fixed 0) := Zone.forward_fixed 0
  have hs : Schedule.parse "* * * * * *" = .ok everySecond := by decide +kernel
  have hrun : run? (.fixed 0) everySecond .start slow =
      some ⟨.running (second 4), false, false, [second 4, second 1]⟩ := by decide +kernel
  obtain ⟨hserved, hfound, -⟩ := served_once hz hs hrun timely_slow
  exact ⟨hz, hs, hrun, timely_slow, (List.pairwise_cons.1 hserved).1 _ List.mem_cons_self, hfound 1 (second 4) rfl⟩

end SheetPost.Trigger
