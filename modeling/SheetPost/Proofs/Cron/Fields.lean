/-
The fields of an expression that was read: each is in order, without repeats, and within the limits of its kind. This is
all that the search for a moment relies on.

Main statements: `wellFormed_of_parse?` and, for a schedule, `isRead_of_parse`.
-/
import Mathlib.Data.List.Basic
import SheetPost.Proofs.Calendar.Moment
import SheetPost.Proofs.Schedule.Parse

namespace SheetPost.Cron

open SheetPost.Calendar

/-- values of a field in order, each once -/
structure Ordered (u : Unit) (values : List Nat) : Prop where
  sorted : values.Pairwise (· < ·)
  holds : ∀ n ∈ values, u.holds n = true

theorem Ordered.bounds {u : Unit} {values : List Nat} (h : Ordered u values) {n : Nat} (hn : n ∈ values) :
    u.low ≤ n ∧ n ≤ u.high := by
  simpa [Unit.holds] using h.holds n hn

theorem ordered_all (u : Unit) : Ordered u u.all :=
  ⟨List.pairwise_lt_range', fun _ hn => Unit.mem_all.1 hn⟩

theorem ordered_of_values? {u : Unit} {items : List Item} {values : List Nat} (h : values? u items = some values) :
    Ordered u values := by
  refine ⟨?_, fun n hn => holds_of_mem_values? h hn⟩
  obtain ⟨lists, -, rfl⟩ := Option.map_eq_some_iff.1 h
  exact (ordered_all u).sorted.filter _

namespace Fields

/-- every field is in order -/
structure WellFormed (f : Fields) : Prop where
  seconds : Ordered .second f.seconds
  minutes : Ordered .minute f.minutes
  hours : Ordered .hour f.hours
  daysOfMonth : Ordered .dayOfMonth f.daysOfMonth
  months : Ordered .month f.months
  daysOfWeek : Ordered .dayOfWeek f.daysOfWeek
  years : Ordered .year f.years

theorem ordered_of_field? {u : Unit} {s rest : List Char} {values : List Nat}
    (h : Grammar.field? u s = some (values, rest)) : Ordered u values := by
  unfold Grammar.field? at h
  rw [Option.bind_eq_bind, Option.bind_eq_some_iff] at h
  obtain ⟨p, -, h⟩ := h
  rw [Option.bind_eq_bind, Option.bind_eq_some_iff] at h
  obtain ⟨values', hv, h⟩ := h
  cases h
  exact ordered_of_values? hv

theorem wellFormed_of_parse? {s : List Char} {f : Fields} (h : Fields.parse? s = some f) : f.WellFormed := by
  unfold Fields.parse? Grammar.fields? at h
  simp only [Option.bind_eq_bind, Option.bind_eq_some_iff] at h
  obtain ⟨⟨seconds, s1⟩, h1, ⟨minutes, s2⟩, h2, ⟨hours, s3⟩, h3, ⟨daysOfMonth, s4⟩, h4, ⟨months, s5⟩, h5,
    ⟨daysOfWeek, s6⟩, h6, h⟩ := h
  have hyears : Ordered .year ((Grammar.field? .year s6).getD (Unit.year.all, s6)).1 := by
    cases h7 : Grammar.field? .year s6 with
    | none => exact ordered_all .year
    | some p => exact ordered_of_field? h7
  split at h
  · cases h
    exact ⟨ordered_of_field? h1, ordered_of_field? h2, ordered_of_field? h3, ordered_of_field? h4,
      ordered_of_field? h5, ordered_of_field? h6, hyears⟩
  · cases h

/-! ## What the fields select -/

/-- a time of day of which every part is selected -/
structure SelectsTime (f : Fields) (t : Time) : Prop where
  hour : t.hour ∈ f.hours
  minute : t.minute ∈ f.minutes
  second : t.second ∈ f.seconds

/-- a date of which every part is selected -/
structure SelectsDate (f : Fields) (d : Date) : Prop where
  year : ∃ y ∈ f.years, (y : Int) = d.year
  month : d.month ∈ f.months
  day : d.day ∈ f.daysOfMonth
  weekday : d.weekday ∈ f.daysOfWeek

theorem selects_iff {f : Fields} {d : Date} {t : Time} : f.selects d t = true ↔ f.SelectsDate d ∧ f.SelectsTime t := by
  simp only [selects, Bool.and_eq_true, List.contains_iff_mem, List.any_eq_true, beq_iff_eq]
  constructor
  · intro h
    obtain ⟨⟨⟨⟨⟨⟨hy, hm⟩, hd⟩, hw⟩, hh⟩, hmin⟩, hs⟩ := h
    exact ⟨⟨hy, hm, hd, hw⟩, ⟨hh, hmin, hs⟩⟩
  · intro h
    obtain ⟨⟨hy, hm, hd, hw⟩, ⟨hh, hmin, hs⟩⟩ := h
    exact ⟨⟨⟨⟨⟨⟨hy, hm⟩, hd⟩, hw⟩, hh⟩, hmin⟩, hs⟩

theorem WellFormed.isValid {f : Fields} (hf : f.WellFormed) {t : Time} (h : f.SelectsTime t) : t.IsValid :=
  ⟨Nat.lt_succ_of_le (hf.hours.bounds h.hour).2, Nat.lt_succ_of_le (hf.minutes.bounds h.minute).2,
    Nat.lt_succ_of_le (hf.seconds.bounds h.second).2⟩

end Fields

end SheetPost.Cron

namespace SheetPost.Schedule

/-- a schedule comes from a text that was read -/
def IsRead : Schedule → Prop
  | .cron _ fields => ∃ s, Cron.Fields.parse? s = some fields
  | .every d => ∃ s, Interval.read s = .interval d

theorem isRead_of_ofCron {source : List Char} {schedule : Schedule} (h : ofCron source = .ok schedule) :
    schedule.IsRead := by
  unfold ofCron at h
  split at h
  · next fields hp =>
    cases h
    exact ⟨source, hp⟩
  · cases h

theorem isRead_of_ofEvery {s : List Char} {schedule : Schedule} (h : ofEvery s = .ok schedule) : schedule.IsRead := by
  unfold ofEvery at h
  split at h
  · next d hd =>
    cases h
    exact ⟨s, hd⟩
  · cases h
  · cases h

theorem isRead_of_parse {text : String} {schedule : Schedule} (h : parse text = .ok schedule) : schedule.IsRead := by
  have hparsed := parsed text
  generalize parse text = r at h hparsed
  cases hparsed with
  | empty => cases h
  | every => exact isRead_of_ofEvery h
  | shortcut => exact isRead_of_ofCron h
  | unknown => cases h
  | expression =>
    have hexpressed := expressed (Text.trim text.toList)
    generalize ofExpression (Text.trim text.toList) = r at h hexpressed
    cases hexpressed with
    | cron => exact isRead_of_ofCron h
    | dayOfWeek => cases h
    | fieldCount => cases h

/-- the fields of a schedule come from an expression that was read -/
theorem exists_of_parse {text source : String} {f : Cron.Fields} (h : parse text = .ok (.cron source f)) :
    ∃ s, Cron.Fields.parse? s = some f := isRead_of_parse h

end SheetPost.Schedule
