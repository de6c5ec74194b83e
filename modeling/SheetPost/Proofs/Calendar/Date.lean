/-
The calendar counts days without gaps and without repeats: every day number is that of one valid date, dates are ordered
as their numbers are, and the order is by year, then month, then day.

Main statements: `dayNumber_ofDayNumber`, `ofDayNumber_dayNumber` and `dayNumber_lt_iff`.
-/
import Mathlib.Data.List.Basic
import SheetPost.Calendar.Date

namespace SheetPost.Calendar

/-! ## Years -/

/-- the length of a year -/
def daysInYear (year : Int) : Nat := if isLeap year then 366 else 365

theorem isLeap_iff (year : Int) : isLeap year = true ↔ year % 4 = 0 ∧ (year % 100 ≠ 0 ∨ year % 400 = 0) := by
  simp [isLeap]

theorem daysBeforeYear_eq (year : Int) :
    daysBeforeYear year = 365 * (year - 1) + (year - 1) / 4 - (year - 1) / 100 + (year - 1) / 400 - 719162 := rfl

theorem daysBeforeYear_succ (year : Int) : daysBeforeYear (year + 1) = daysBeforeYear year + daysInYear year := by
  have hleap := isLeap_iff year
  rw [daysBeforeYear_eq, daysBeforeYear_eq, daysInYear]
  by_cases h : isLeap year = true
  · rw [if_pos h]
    have := hleap.1 h
    omega
  · rw [if_neg h]
    have : ¬ (year % 4 = 0 ∧ (year % 100 ≠ 0 ∨ year % 400 = 0)) := fun hl => h (hleap.2 hl)
    omega

theorem daysBeforeYear_add_le {a b : Int} (h : a < b) : daysBeforeYear a + daysInYear a ≤ daysBeforeYear b := by
  rw [← daysBeforeYear_succ, daysBeforeYear_eq, daysBeforeYear_eq]
  omega

theorem daysBeforeYear_yearOf (n : Int) :
    daysBeforeYear (Date.yearOf n) ≤ n ∧ n < daysBeforeYear (Date.yearOf n + 1) := by
  have hguess : daysBeforeYear ((n + 719162) * 400 / 146097 + 1 - 1) ≤ n ∧
      n < daysBeforeYear ((n + 719162) * 400 / 146097 + 1 + 1 + 1) := by
    rw [daysBeforeYear_eq, daysBeforeYear_eq]
    omega
  unfold Date.yearOf
  simp only
  split
  · next h1 =>
    split
    · next h2 => exact ⟨h2, hguess.2⟩
    · next h2 => exact ⟨h1, by omega⟩
  · next h1 =>
    refine ⟨hguess.1, ?_⟩
    rw [Int.sub_add_cancel]
    omega

/-! ## Months -/

theorem daysInMonth_pos (year : Int) (month : Nat) : 0 < daysInMonth year month := by
  unfold daysInMonth
  split
  · split <;> omega
  all_goals omega

theorem daysBeforeMonth_succ (year : Int) {month : Nat} (h : 1 ≤ month) :
    daysBeforeMonth year (month + 1) = daysBeforeMonth year month + daysInMonth year month := by
  obtain ⟨m, rfl⟩ : ∃ m, month = m + 1 := ⟨month - 1, by omega⟩
  rw [daysBeforeMonth, daysBeforeMonth, Nat.add_sub_cancel, Nat.add_sub_cancel, List.range'_concat, List.foldl_append,
    Nat.one_mul, Nat.add_comm 1 m]
  rfl

theorem daysBeforeMonth_add_le (year : Int) {a b : Nat} (ha : 1 ≤ a) (h : a < b) :
    daysBeforeMonth year a + daysInMonth year a ≤ daysBeforeMonth year b := by
  rw [← daysBeforeMonth_succ year ha]
  induction h with
  | refl => exact Nat.le_refl _
  | @step m h ih =>
    have hm : 1 ≤ m := Nat.le_trans (Nat.le_succ_of_le ha) h
    calc
      daysBeforeMonth year (a + 1) ≤ daysBeforeMonth year m := ih
      _ ≤ daysBeforeMonth year m + daysInMonth year m := Nat.le_add_right _ _
      _ = daysBeforeMonth year (m + 1) := (daysBeforeMonth_succ year hm).symm

theorem daysBeforeMonth_thirteen (year : Int) : daysBeforeMonth year 13 = daysInYear year := by
  unfold daysBeforeMonth daysInYear daysInMonth
  cases isLeap year <;> rfl

/-- a month and a day of it are the day `n` of a year, counted from zero -/
structure IsDayOfYear (year : Int) (n : Nat) (p : Nat × Nat) : Prop where
  low : 1 ≤ p.1
  high : p.1 ≤ 12
  pos : 1 ≤ p.2
  le : p.2 ≤ daysInMonth year p.1
  count : daysBeforeMonth year p.1 + p.2 = n + 1

/-- the months from one on to December have all the days that are left of the year -/
theorem isDayOfYear_monthOf (year : Int) (n k month : Nat) (hk : month + k = 13) (hm : 1 ≤ month)
    (hn : daysBeforeMonth year month + n < daysInYear year) :
    IsDayOfYear year (daysBeforeMonth year month + n) (Date.monthOf year n (List.range' month k)) := by
  induction k generalizing month n with
  | zero =>
    have : month = 13 := hk
    subst this
    rw [daysBeforeMonth_thirteen] at hn
    omega
  | succ k ih =>
    rw [List.range'_succ, Date.monthOf]
    by_cases hlt : n < daysInMonth year month
    · rw [if_pos hlt]
      exact ⟨hm, by show month ≤ 12; omega, Nat.succ_pos n, hlt, rfl⟩
    · rw [if_neg hlt]
      have hsucc := daysBeforeMonth_succ year hm
      have hrest : daysBeforeMonth year (month + 1) + (n - daysInMonth year month) =
          daysBeforeMonth year month + n := by
        omega
      rw [← hrest]
      exact ih _ _ (by omega) (by omega) (by omega)

/-! ## Dates -/

namespace Date

theorem isValid_iff (d : Date) :
    d.isValid = true ↔ 1 ≤ d.month ∧ d.month ≤ 12 ∧ 1 ≤ d.day ∧ d.day ≤ daysInMonth d.year d.month := by
  simp [isValid, and_assoc]

/-- the day of the year, counted from one, is one of that year -/
theorem dayOfYear_le {d : Date} (h : d.isValid = true) :
    daysBeforeMonth d.year d.month + d.day ≤ daysInYear d.year := by
  obtain ⟨h1, h2, -, h4⟩ := (isValid_iff d).1 h
  have := daysBeforeMonth_add_le d.year h1 (Nat.lt_succ_of_le h2)
  rw [daysBeforeMonth_thirteen] at this
  omega

theorem dayNumber_bounds {d : Date} (h : d.isValid = true) :
    daysBeforeYear d.year ≤ d.dayNumber ∧ d.dayNumber < daysBeforeYear (d.year + 1) := by
  have h1 := dayOfYear_le h
  obtain ⟨-, -, h3, -⟩ := (isValid_iff d).1 h
  rw [daysBeforeYear_succ, dayNumber]
  omega

theorem ofDayNumber_valid (n : Int) : (ofDayNumber n).isValid = true ∧ (ofDayNumber n).dayNumber = n := by
  obtain ⟨h1, h2⟩ := daysBeforeYear_yearOf n
  rw [daysBeforeYear_succ] at h2
  have hzero : daysBeforeMonth (yearOf n) 1 = 0 := rfl
  have hday := isDayOfYear_monthOf (yearOf n) (n - daysBeforeYear (yearOf n)).toNat 12 1 rfl (Nat.le_refl 1) (by omega)
  rw [hzero, Nat.zero_add] at hday
  obtain ⟨h3, h4, h5, h6, h7⟩ := hday
  refine ⟨(isValid_iff _).2 ⟨h3, h4, h5, h6⟩, ?_⟩
  rw [dayNumber, ofDayNumber]
  simp only
  omega

/-- **Dates are ordered by year, month and day** -/
theorem dayNumber_lt_iff {a b : Date} (ha : a.isValid = true) (hb : b.isValid = true) :
    a.dayNumber < b.dayNumber ↔
      a.year < b.year ∨ a.year = b.year ∧ (a.month < b.month ∨ a.month = b.month ∧ a.day < b.day) := by
  have hyear {c d : Date} (hc : c.isValid = true) (hd : d.isValid = true) (h : c.year < d.year) :
      c.dayNumber < d.dayNumber := by
    calc
      c.dayNumber < daysBeforeYear (c.year + 1) := (dayNumber_bounds hc).2
      _ = daysBeforeYear c.year + daysInYear c.year := daysBeforeYear_succ c.year
      _ ≤ daysBeforeYear d.year := daysBeforeYear_add_le h
      _ ≤ d.dayNumber := (dayNumber_bounds hd).1
  have hmonth {c d : Date} (hc : c.isValid = true) (hd : d.isValid = true) (h : c.year = d.year)
      (hm : c.month < d.month) : c.dayNumber < d.dayNumber := by
    obtain ⟨h1, -, -, h4⟩ := (isValid_iff c).1 hc
    obtain ⟨-, -, h5, -⟩ := (isValid_iff d).1 hd
    have h6 := daysBeforeMonth_add_le c.year h1 hm
    rw [dayNumber, dayNumber, ← h]
    omega
  have hday {c d : Date} (h : c.year = d.year) (hm : c.month = d.month) :
      c.dayNumber < d.dayNumber ↔ c.day < d.day := by
    rw [dayNumber, dayNumber, h, hm]
    omega
  rcases Int.lt_trichotomy a.year b.year with h | h | h
  · exact ⟨fun _ => .inl h, fun _ => hyear ha hb h⟩
  · rcases Nat.lt_trichotomy a.month b.month with hm | hm | hm
    · exact ⟨fun _ => .inr ⟨h, .inl hm⟩, fun _ => hmonth ha hb h hm⟩
    · rw [hday h hm]
      omega
    · have := hmonth hb ha h.symm hm
      omega
  · have := hyear hb ha h
    omega

theorem eq_of_dayNumber_eq {a b : Date} (ha : a.isValid = true) (hb : b.isValid = true)
    (h : a.dayNumber = b.dayNumber) : a = b := by
  have h1 := dayNumber_lt_iff ha hb
  have h2 := dayNumber_lt_iff hb ha
  obtain ⟨y, m, d⟩ := a
  obtain ⟨y', m', d'⟩ := b
  simp only [Date.mk.injEq] at *
  omega

theorem ofDayNumber_dayNumber {d : Date} (h : d.isValid = true) : ofDayNumber d.dayNumber = d :=
  eq_of_dayNumber_eq (ofDayNumber_valid _).1 h (ofDayNumber_valid _).2

end Date

end SheetPost.Calendar
