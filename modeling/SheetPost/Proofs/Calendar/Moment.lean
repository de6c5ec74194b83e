/-
What a clock shows and how its seconds are counted: every second is that of one valid moment, and moments are ordered by
date and time of day as their seconds are.

Main statements: `localSeconds_ofLocalSeconds` and `localSeconds_lt_iff`.
-/
import SheetPost.Calendar.Moment
import SheetPost.Proofs.Calendar.Date

namespace SheetPost.Calendar

/-! ## Times of day -/

namespace Time

/-- a time that a clock shows -/
structure IsValid (t : Time) : Prop where
  hour : t.hour < 24
  minute : t.minute < 60
  second : t.second < 60

theorem seconds_lt {t : Time} (h : t.IsValid) : t.seconds < 86400 := by
  obtain ⟨h1, h2, h3⟩ := h
  unfold seconds
  omega

theorem seconds_lt_iff {a b : Time} (ha : a.IsValid) (hb : b.IsValid) :
    a.seconds < b.seconds ↔
      a.hour < b.hour ∨ a.hour = b.hour ∧ (a.minute < b.minute ∨ a.minute = b.minute ∧ a.second < b.second) := by
  obtain ⟨-, h1, h2⟩ := ha
  obtain ⟨-, h3, h4⟩ := hb
  unfold seconds
  omega

theorem eq_of_seconds_eq {a b : Time} (ha : a.IsValid) (hb : b.IsValid) (h : a.seconds = b.seconds) : a = b := by
  calc
    a = ofSeconds a.seconds := (ofSeconds_seconds ha.minute ha.second).symm
    _ = ofSeconds b.seconds := by rw [h]
    _ = b := ofSeconds_seconds hb.minute hb.second

theorem ofSeconds_valid {n : Nat} (h : n < 86400) : (ofSeconds n).IsValid ∧ (ofSeconds n).seconds = n := by
  refine ⟨⟨?_, ?_, ?_⟩, ?_⟩
  · show n / 3600 < 24
    omega
  · show n / 60 % 60 < 60
    omega
  · show n % 60 < 60
    omega
  · show n / 3600 * 3600 + n / 60 % 60 * 60 + n % 60 = n
    omega

end Time

/-! ## Moments -/

namespace Moment

/-- a moment that a clock shows -/
structure IsValid (m : Moment) : Prop where
  date : m.date.isValid = true
  time : m.time.IsValid

theorem ofLocalSeconds_valid (seconds : Int) (nanos : Nat) (offset : Int) :
    (ofLocalSeconds seconds nanos offset).IsValid :=
  ⟨(Date.ofDayNumber_valid _).1, (Time.ofSeconds_valid (by omega)).1⟩

theorem localSeconds_ofLocalSeconds (seconds : Int) (nanos : Nat) (offset : Int) :
    (ofLocalSeconds seconds nanos offset).localSeconds = seconds := by
  have hdate := (Date.ofDayNumber_valid (seconds / 86400)).2
  have htime := (Time.ofSeconds_valid (n := (seconds % 86400).toNat) (by omega)).2
  rw [localSeconds, ofLocalSeconds]
  simp only
  rw [hdate, htime]
  omega

theorem localSeconds_lt_iff {a b : Moment} (ha : a.IsValid) (hb : b.IsValid) :
    a.localSeconds < b.localSeconds ↔
      a.date.dayNumber < b.date.dayNumber ∨ a.date.dayNumber = b.date.dayNumber ∧ a.time.seconds < b.time.seconds := by
  have h1 := Time.seconds_lt ha.time
  have h2 := Time.seconds_lt hb.time
  unfold localSeconds
  omega

/-- moments of one clock that show the same are the same -/
theorem eq_of_localSeconds_eq {a b : Moment} (ha : a.IsValid) (hb : b.IsValid) (hn : a.nanos = b.nanos)
    (ho : a.offset = b.offset) (h : a.localSeconds = b.localSeconds) : a = b := by
  have h1 := localSeconds_lt_iff ha hb
  have h2 := localSeconds_lt_iff hb ha
  have hdate := Date.eq_of_dayNumber_eq ha.date hb.date (by omega)
  have htime := Time.eq_of_seconds_eq ha.time hb.time (by omega)
  obtain ⟨d, t, n, o⟩ := a
  obtain ⟨d', t', n', o'⟩ := b
  simp only at hdate htime hn ho
  rw [hdate, htime, hn, ho]

end Moment

end SheetPost.Calendar
