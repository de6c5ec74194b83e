/-
Zones: how far the clocks of a place are from UTC. Clocks can be put forward or back, so a second that they show can come
twice or not at all; which of two is taken is up to the zone.
-/
import SheetPost.Calendar.Moment

namespace SheetPost.Calendar

/-- the clocks of a place -/
structure Zone where
  /-- how far they are ahead at a second of UTC -/
  offsetAt : Int → Int
  /-- how far they are ahead at the second that is taken when they show one; there may be none -/
  offsetOf? : Int → Option Int
  shown : ∀ {seconds offset : Int}, offsetOf? seconds = some offset → offsetAt (seconds - offset) = offset

namespace Zone

/-- clocks that are never put forward or back -/
def fixed (offset : Int) : Zone := ⟨fun _ => offset, fun _ => some offset, Option.some.inj⟩

/-- clocks that are put forward and back between some distances; a second that they show twice is not taken -/
def once (offsetAt : Int → Int) (offsets : List Int) : Zone where
  offsetAt := offsetAt
  offsetOf? seconds :=
    match offsets.filter fun offset => offsetAt (seconds - offset) == offset with
    | [offset] => some offset
    | _ => none
  shown {seconds offset} h := by
    split at h
    · next only he =>
      cases h
      have hmem : offset ∈ offsets.filter fun offset => offsetAt (seconds - offset) == offset := by simp [he]
      simpa using (List.mem_filter.1 hmem).2
    · cases h

/-- the moment at a second of UTC -/
def atUtc (z : Zone) (seconds : Int) (nanos : Nat) : Moment :=
  .ofLocalSeconds (seconds + z.offsetAt seconds) nanos (z.offsetAt seconds)

/-- the moment that is taken when the clocks show a date and a time of day -/
def moment? (z : Zone) (date : Date) (time : Time) : Option Moment :=
  (z.offsetOf? (date.dayNumber * 86400 + time.seconds)).map fun offset => ⟨date, time, 0, offset⟩

/-- the moment later by a length of time, unless it passes the last second -/
def add? (z : Zone) (m : Moment) (seconds nanos : Nat) : Option Moment :=
  let sum := m.nanos + nanos
  let total := m.utcSeconds + seconds + (sum / Moment.nanosPerSecond : Nat)
  if total ≤ Moment.lastUtcSecond then some (z.atUtc total (sum % Moment.nanosPerSecond)) else none

end Zone

end SheetPost.Calendar
