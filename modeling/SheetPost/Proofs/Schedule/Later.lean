/-
The next moment of a schedule is later than now: the search for a trigger starts a second after now, and an interval is
longer than nothing. For a trigger this takes a forward zone. Where clocks are put back and the earlier of two seconds is
taken, the next moment can lie before now.

Main statements: `before_nextIn?`, and where it fails (`nextIn?_earlier`).
-/
import SheetPost.Proofs.Cron.Trigger
import SheetPost.Proofs.Schedule.Interval

namespace SheetPost

open SheetPost.Calendar

variable {now m : Moment}

/-! ## Intervals -/

/-- an interval that was read is longer than nothing -/
theorem Schedule.Interval.totalNanos_pos {s : List Char} {d : Schedule.Interval} (h : read s = .interval d) :
    0 < d.totalNanos := by
  obtain ⟨items, -, -, hpos, -, rfl⟩ := read_eq_interval_iff.1 h
  rw [totalNanos_ofNanos]
  exact Nat.pos_of_ne_zero hpos

/-- a moment moves forward by an interval, in any zone and also from within a leap second -/
theorem Calendar.Zone.before_add? {z : Zone} {d : Schedule.Interval} (hd : 0 < d.totalNanos)
    (h : z.add? now d.secs d.nanos = some m) : now.before m := by
  simp only [Zone.add?] at h
  split at h
  · cases h
    unfold Moment.before
    rw [Zone.utcSeconds_atUtc]
    simp only [Zone.atUtc, Moment.ofLocalSeconds, Moment.nanosPerSecond, Schedule.Interval.totalNanos] at *
    omega
  · cases h

/-! ## Schedules -/

/-- what a schedule asks of a zone: cron goes by what the clocks show, so they must be forward; an interval does not -/
def Schedule.Suits (zone : Zone) : Schedule → Prop
  | .cron _ _ => zone.Forward
  | .every _ => True

/-- **The next moment is later than now**, for every schedule that was read and suits the zone -/
theorem Schedule.before_nextIn? {text : String} {schedule : Schedule} {z : Zone} (hz : schedule.Suits z)
    (hs : parse text = .ok schedule) (h : schedule.nextIn? z now = some m) : now.before m := by
  cases schedule with
  | cron source fields =>
    obtain ⟨s, hp⟩ := isRead_of_parse hs
    exact Cron.Fields.before_nextIn? hz (Cron.Fields.wellFormed_of_parse? hp) h
  | every d =>
    obtain ⟨s, hr⟩ := isRead_of_parse hs
    simp only [nextIn?] at h
    split at h
    · exact Zone.before_add? (Interval.totalNanos_pos hr) h
    · cases h

/-- at ten past two for the second time, half past two is taken for the first one, forty minutes before -/
theorem Schedule.nextIn?_earlier :
    let fields : Cron.Fields := ⟨[0], [30], [2], Cron.Unit.dayOfMonth.all, Cron.Unit.month.all, Cron.Unit.dayOfWeek.all,
      Cron.Unit.year.all⟩
    parse "0 30 2 * * *" = .ok (.cron "0 30 2 * * *" fields) ∧
    fields.nextIn? .earlier ⟨⟨2026, 10, 25⟩, ⟨2, 10, 0⟩, 0, 3600⟩ = some ⟨⟨2026, 10, 25⟩, ⟨2, 30, 0⟩, 0, 7200⟩ ∧
    Moment.before ⟨⟨2026, 10, 25⟩, ⟨2, 30, 0⟩, 0, 7200⟩ ⟨⟨2026, 10, 25⟩, ⟨2, 10, 0⟩, 0, 3600⟩ := by
  decide +kernel

-- where neither of the two is taken, it is half past two on the next day
example :
    Cron.Fields.nextIn? ⟨[0], [30], [2], Cron.Unit.dayOfMonth.all, Cron.Unit.month.all, Cron.Unit.dayOfWeek.all,
      Cron.Unit.year.all⟩ (.once Zone.autumn [7200, 3600]) ⟨⟨2026, 10, 25⟩, ⟨2, 10, 0⟩, 0, 3600⟩ =
        some ⟨⟨2026, 10, 26⟩, ⟨2, 30, 0⟩, 0, 3600⟩ := by
  decide +kernel

end SheetPost
