/-
The search for the next moment, level by level: minute, hour, day, month, year. Each level is shown to find the first of
what it looks through, where everything but the first place is looked through from its beginning, and what the clocks of
the zone do not show is left out.

What counts is what the floor leaves of a year (`Reaches`). The search takes the floor's day down to the length of the
month it looks at, and its time of day for the first selected day from there on; in the floor's own year this is the
order of the calendar, and in another year it is not.

Main statement: `isFirst_inYears?`.
-/
import SheetPost.Proofs.Calendar.Zone
import SheetPost.Proofs.Cron.Fields
import SheetPost.Proofs.Cron.First

namespace SheetPost.Cron.Fields

open SheetPost.Calendar

variable {f : Fields} {z : Zone}

/-! ## Moments of a day -/

/-- on one day moments are ordered by hour, minute and second -/
theorem localSeconds_le {a b : Moment} (hd : a.date = b.date) (hs : a.time.second < 60)
    (h : a.time.hour < b.time.hour ∧ a.time.minute < 60 ∨ a.time.hour = b.time.hour ∧
      (a.time.minute < b.time.minute ∨ a.time.minute = b.time.minute ∧ a.time.second ≤ b.time.second)) :
    a.localSeconds ≤ b.localSeconds := by
  unfold Moment.localSeconds Time.seconds
  rw [hd]
  omega

theorem mem_filter_le {values : List Nat} {n v : Nat} : v ∈ values.filter (n ≤ ·) ↔ v ∈ values ∧ n ≤ v := by
  rw [List.mem_filter, decide_eq_true_eq]

theorem isFirst_inMinute? (hf : f.WellFormed) (z : Zone) (date : Date) (h m s : Nat) :
    IsFirst Moment.localSeconds (fun x => z.Takes x ∧ x.date = date ∧ x.time.hour = h ∧ x.time.minute = m ∧
      x.time.second ∈ f.seconds ∧ s ≤ x.time.second) (f.inMinute? z date h m s) := by
  have hplace (v : Nat) : IsFirst Moment.localSeconds (fun x => z.Takes x ∧ x.date = date ∧ x.time = ⟨h, m, v⟩)
      (z.moment? date ⟨h, m, v⟩) := (IsFirst.self _).congr fun _ => Zone.moment?_eq_some_iff
  refine (IsFirst.findSome? (hf.seconds.sorted.filter (s ≤ ·)) (fun v _ => hplace v) ?_).congr ?_
  · intro v w a b hvw ha hb
    obtain ⟨-, h1, h2⟩ := ha
    obtain ⟨-, h3, h4⟩ := hb
    unfold Moment.localSeconds Time.seconds
    rw [h1, h2, h3, h4]
    simp only
    omega
  · intro x
    constructor
    · intro hx
      obtain ⟨v, hv, htakes, hdate, htime⟩ := hx
      obtain ⟨hv, hle⟩ := mem_filter_le.1 hv
      rw [htime]
      exact ⟨htakes, hdate, rfl, rfl, hv, hle⟩
    · intro hx
      obtain ⟨htakes, hdate, rfl, rfl, hv, hle⟩ := hx
      exact ⟨x.time.second, mem_filter_le.2 ⟨hv, hle⟩, htakes, hdate, rfl⟩

theorem isFirst_inHour? (hf : f.WellFormed) (z : Zone) (date : Date) (h m s : Nat) :
    IsFirst Moment.localSeconds (fun x => z.Takes x ∧ x.date = date ∧ x.time.hour = h ∧ x.time.minute ∈ f.minutes ∧
      x.time.second ∈ f.seconds ∧ (m < x.time.minute ∨ x.time.minute = m ∧ s ≤ x.time.second))
      (f.inHour? z date h m s) := by
  have hsecond {n : Nat} (hn : n ∈ f.seconds) : n < 60 := Nat.lt_succ_of_le (hf.seconds.bounds hn).2
  refine (IsFirst.orLater hf.minutes.sorted (isFirst_inMinute? hf z date h m s) ?_
    (fun v _ => isFirst_inMinute? hf z date h v 0) ?_).congr ?_
  · intro x hx
    obtain ⟨h0, h1, h2, h3, h4, -⟩ := hx
    exact ⟨h0, h1, h2, h3, h4, Nat.zero_le _⟩
  · intro v w a b hvw ha hb
    obtain ⟨-, h1, h2, h3, h4, -⟩ := ha
    obtain ⟨-, h5, h6, h7, -, -⟩ := hb
    exact localSeconds_le (h1.trans h5.symm) (hsecond h4) (.inr ⟨h2.trans h6.symm, .inl (by omega)⟩)
  · intro x
    constructor
    · intro hx
      rcases hx with ⟨hm, h0, h1, h2, h3, h4, h5⟩ | ⟨v, hv, hlt, h0, h1, h2, h3, h4, -⟩
      · exact ⟨h0, h1, h2, h3 ▸ hm, h4, .inr ⟨h3, h5⟩⟩
      · exact ⟨h0, h1, h2, h3 ▸ hv, h4, .inl (by omega)⟩
    · intro hx
      rcases hx with ⟨h0, h1, h2, h3, h4, h5 | ⟨h5, h6⟩⟩
      · exact .inr ⟨x.time.minute, h3, h5, h0, h1, h2, rfl, h4, Nat.zero_le _⟩
      · exact .inl ⟨h5 ▸ h3, h0, h1, h2, h5, h4, h6⟩

/-- the search in a day finds the first moment from a time on that the clocks show and the fields select -/
theorem isFirst_inDay? (hf : f.WellFormed) (z : Zone) (date : Date) {t : Time} (ht : t.IsValid) :
    IsFirst Moment.localSeconds (fun x => z.Takes x ∧ x.date = date ∧ f.SelectsTime x.time ∧
      t.seconds ≤ x.time.seconds) (f.inDay? z date t) := by
  have hsecond {n : Nat} (hn : n ∈ f.seconds) : n < 60 := Nat.lt_succ_of_le (hf.seconds.bounds hn).2
  have hminute {n : Nat} (hn : n ∈ f.minutes) : n < 60 := Nat.lt_succ_of_le (hf.minutes.bounds hn).2
  refine (IsFirst.orLater hf.hours.sorted (isFirst_inHour? hf z date t.hour t.minute t.second) ?_
    (fun v _ => isFirst_inHour? hf z date v 0 0) ?_).congr ?_
  · intro x hx
    obtain ⟨h0, h1, h2, h3, h4, -⟩ := hx
    exact ⟨h0, h1, h2, h3, h4, by omega⟩
  · intro v w a b hvw ha hb
    obtain ⟨-, h1, h2, h3, h4, -⟩ := ha
    obtain ⟨-, h5, h6, -, -, -⟩ := hb
    exact localSeconds_le (h1.trans h5.symm) (hsecond h4) (.inl ⟨by omega, hminute h3⟩)
  · intro x
    constructor
    · intro hx
      have := ht.second
      have := ht.minute
      rcases hx with ⟨hm, h0, h1, h2, h3, h4, h5⟩ | ⟨v, hv, hlt, h0, h1, h2, h3, h4, -⟩
      · refine ⟨h0, h1, ⟨h2 ▸ hm, h3, h4⟩, ?_⟩
        unfold Time.seconds
        omega
      · refine ⟨h0, h1, ⟨h2 ▸ hv, h3, h4⟩, ?_⟩
        unfold Time.seconds
        omega
    · intro hx
      obtain ⟨h0, h1, hx, hle⟩ := hx
      have hx' := hf.isValid hx
      have hnot := (Time.seconds_lt_iff hx' ht).not.1 (Nat.not_lt.2 hle)
      by_cases h : x.time.hour = t.hour
      · exact .inl ⟨h ▸ hx.hour, h0, h1, h, hx.minute, hx.second, by omega⟩
      · exact .inr ⟨x.time.hour, hx.hour, by omega, h0, h1, rfl, hx.minute, hx.second, by omega⟩

/-! ## Days and months -/

/-- a moment that the clocks of a zone show and the fields select -/
structure Selects (f : Fields) (z : Zone) (m : Moment) : Prop where
  takes : z.Takes m
  valid : m.date.isValid = true
  date : f.SelectsDate m.date
  time : f.SelectsTime m.time

/-- what a floor of day and time leaves of a month -/
def ReachesDay (f : Fields) (day : Nat) (t : Time) (m : Moment) : Prop :=
  min day (daysInMonth m.date.year m.date.month) < m.date.day ∨
    m.date.day = min day (daysInMonth m.date.year m.date.month) ∧
      (day ∈ f.daysOfMonth → t.seconds ≤ m.time.seconds)

/-- what a floor leaves of a year -/
def Reaches (f : Fields) (floor : Floor) (m : Moment) : Prop :=
  floor.month < m.date.month ∨ m.date.month = floor.month ∧ f.ReachesDay floor.day floor.time m

theorem localSeconds_le_of_dayNumber_lt {a b : Moment} (ha : a.time.IsValid)
    (h : a.date.dayNumber < b.date.dayNumber) : a.localSeconds ≤ b.localSeconds := by
  have := Time.seconds_lt ha
  unfold Moment.localSeconds
  omega

theorem Selects.reachesDay_one {m : Moment} (h : f.Selects z m) : f.ReachesDay 1 .midnight m := by
  have h1 := daysInMonth_pos m.date.year m.date.month
  obtain ⟨-, -, h2, -⟩ := (Date.isValid_iff m.date).1 h.valid
  by_cases hd : m.date.day = 1
  · exact .inr ⟨by omega, fun _ => Nat.zero_le _⟩
  · exact .inl (by omega)

theorem Selects.reaches_bottom {m : Moment} (h : f.Selects z m) : f.Reaches .bottom m := by
  obtain ⟨h1, -, -, -⟩ := (Date.isValid_iff m.date).1 h.valid
  by_cases hm : m.date.month = 1
  · exact .inr ⟨hm, h.reachesDay_one⟩
  · exact .inl (by show 1 < _; omega)

theorem isFirst_onDays? (hf : f.WellFormed) (z : Zone) (year month : Nat) {days : List Nat} {t : Time}
    (hd : days.Pairwise (· < ·)) (ht : t.IsValid) :
    IsFirst Moment.localSeconds (fun x => z.Takes x ∧ x.date.year = year ∧ x.date.month = month ∧ x.date.day ∈ days ∧
      x.date.weekday ∈ f.daysOfWeek ∧ f.SelectsTime x.time ∧ (days.head? = some x.date.day → t.seconds ≤ x.time.seconds))
      (f.onDays? z year month days t) := by
  induction days generalizing t with
  | nil =>
    intro x hx
    obtain ⟨-, -, -, hx, -⟩ := hx
    cases hx
  | cons d days ih =>
    obtain ⟨hlt, hd⟩ := List.pairwise_cons.1 hd
    have hmidnight : Time.midnight.IsValid := ⟨by decide, by decide, by decide⟩
    have hthis := IsFirst.guard (c := f.daysOfWeek.contains (Date.weekday ⟨year, month, d⟩) = true) fun _ =>
      isFirst_inDay? hf z ⟨year, month, d⟩ ht
    refine (hthis.orElse (ih hd hmidnight) ?_).congr ?_
    · intro a b ha hb
      obtain ⟨-, -, h1, h2, -⟩ := ha
      obtain ⟨-, h3, h4, h5, -⟩ := hb
      refine localSeconds_le_of_dayNumber_lt (hf.isValid h2) ?_
      have := hlt _ h5
      rw [h1, Date.dayNumber, Date.dayNumber, h3, h4]
      simp only
      omega
    · intro x
      obtain ⟨⟨y, m, day⟩, time, nanos, offset⟩ := x
      simp only [Date.mk.injEq, List.contains_iff_mem, List.mem_cons, List.head?_cons, Option.some.injEq]
      constructor
      · intro hx
        rcases hx with ⟨hw, h0, ⟨rfl, rfl, rfl⟩, h2, h3⟩ | ⟨h0, rfl, rfl, h3, h4, h5, -⟩
        · exact ⟨h0, rfl, rfl, .inl rfl, hw, h2, fun _ => h3⟩
        · refine ⟨h0, rfl, rfl, .inr h3, h4, h5, ?_⟩
          intro heq
          subst heq
          exact absurd (hlt d h3) (Nat.lt_irrefl d)
      · intro hx
        rcases hx with ⟨h0, rfl, rfl, rfl | h3, h4, h5, h6⟩
        · exact .inl ⟨h4, h0, ⟨rfl, rfl, rfl⟩, h5, h6 rfl⟩
        · exact .inr ⟨h0, rfl, rfl, h3, h4, h5, fun _ => Nat.zero_le _⟩

/-- the least of some values in order is the first -/
theorem head?_of_least {values : List Nat} (hs : values.Pairwise (· < ·)) {n : Nat} (hn : n ∈ values)
    (hle : ∀ v ∈ values, n ≤ v) : values.head? = some n := by
  cases values with
  | nil => cases hn
  | cons v values =>
    have hv := hle v List.mem_cons_self
    rcases List.mem_cons.1 hn with rfl | hn
    · rfl
    · exact absurd ((List.pairwise_cons.1 hs).1 n hn) (Nat.not_lt.2 hv)

/-- the floor of a month falls on the first of the days that are looked at, or on none -/
theorem reachesDay_iff (hf : f.WellFormed) {year : Int} {month day : Nat} {t : Time} {x : Moment}
    (hy : x.date.year = year) (hm : x.date.month = month)
    (hd : x.date.day ∈ f.daysOfMonth.filter fun d => min day (daysInMonth year month) ≤ d && d ≤ daysInMonth year month) :
    ((f.daysOfMonth.filter fun d => min day (daysInMonth year month) ≤ d && d ≤ daysInMonth year month).head? =
        some x.date.day → (if f.daysOfMonth.contains day then t else .midnight).seconds ≤ x.time.seconds) ↔
      f.ReachesDay day t x := by
  have hmem {d : Nat} : (d ∈ f.daysOfMonth.filter fun d =>
      min day (daysInMonth year month) ≤ d && d ≤ daysInMonth year month) ↔
      d ∈ f.daysOfMonth ∧ min day (daysInMonth year month) ≤ d ∧ d ≤ daysInMonth year month := by
    rw [List.mem_filter, Bool.and_eq_true, decide_eq_true_eq, decide_eq_true_eq]
  obtain ⟨-, hlow, hlen⟩ := hmem.1 hd
  unfold ReachesDay
  rw [hy, hm]
  by_cases hday : day ∈ f.daysOfMonth
  · rw [if_pos (List.contains_iff_mem.2 hday)]
    -- the least of the days is the floor's own, or the last of the month if the floor's comes after it
    have hhead : x.date.day = min day (daysInMonth year month) →
        (f.daysOfMonth.filter fun d => min day (daysInMonth year month) ≤ d && d ≤ daysInMonth year month).head? =
          some x.date.day := by
      intro h
      refine head?_of_least (hf.daysOfMonth.sorted.filter _) hd fun v hv => ?_
      rw [h]
      exact (hmem.1 hv).2.1
    constructor
    · intro h
      by_cases hmin : x.date.day = min day (daysInMonth year month)
      · exact .inr ⟨hmin, fun _ => h (hhead hmin)⟩
      · exact .inl (Nat.lt_of_le_of_ne hlow (Ne.symm hmin))
    · intro h hfirst
      rcases h with h | ⟨-, h⟩
      · have hle : day ≤ daysInMonth year month := by omega
        have := head?_of_least (hf.daysOfMonth.sorted.filter _) (hmem.2 ⟨hday, Nat.min_le_left _ _, hle⟩) fun v hv => by
          have := (hmem.1 hv).2.1
          omega
        rw [this, Option.some.injEq] at hfirst
        omega
      · exact h hday
  · rw [if_neg fun h => hday (List.contains_iff_mem.1 h)]
    refine ⟨fun _ => ?_, fun _ _ => Nat.zero_le _⟩
    rcases Nat.lt_or_eq_of_le hlow with h | h
    · exact .inl h
    · exact .inr ⟨h.symm, fun h => absurd h hday⟩

theorem isFirst_inMonth? (hf : f.WellFormed) (z : Zone) {year month : Nat} (hy : year ∈ f.years)
    (hm : month ∈ f.months) (day : Nat) {t : Time} (ht : t.IsValid) :
    IsFirst Moment.localSeconds (fun x => x.date.year = year ∧ x.date.month = month ∧ f.Selects z x ∧
      f.ReachesDay day t x) (f.inMonth? z year month day t) := by
  have hmidnight : Time.midnight.IsValid := ⟨by decide, by decide, by decide⟩
  have htime : (if f.daysOfMonth.contains day then t else .midnight).IsValid := by
    split
    · exact ht
    · exact hmidnight
  refine (isFirst_onDays? hf z year month (hf.daysOfMonth.sorted.filter _) htime).congr ?_
  intro x
  constructor
  · intro h
    obtain ⟨h0, h1, h2, h3, h4, h5, h6⟩ := h
    have hreach := (reachesDay_iff hf h1 h2 h3).1 h6
    rw [List.mem_filter, Bool.and_eq_true, decide_eq_true_eq, decide_eq_true_eq] at h3
    have hmonth := hf.months.bounds hm
    have hday := hf.daysOfMonth.bounds h3.1
    refine ⟨h1, h2, ⟨h0, (Date.isValid_iff _).2 ?_, ⟨⟨year, hy, h1.symm⟩, h2 ▸ hm, h3.1, h4⟩, h5⟩, hreach⟩
    rw [h1, h2]
    exact ⟨hmonth.1, hmonth.2, hday.1, h3.2.2⟩
  · intro h
    obtain ⟨h1, h2, h3, h4⟩ := h
    have hmem : x.date.day ∈ f.daysOfMonth.filter fun d =>
        min day (daysInMonth year month) ≤ d && d ≤ daysInMonth year month := by
      rw [List.mem_filter, Bool.and_eq_true, decide_eq_true_eq, decide_eq_true_eq]
      have hlen := ((Date.isValid_iff _).1 h3.valid).2.2.2
      unfold ReachesDay at h4
      rw [h1, h2] at h4 hlen
      exact ⟨h3.date.day, by omega, hlen⟩
    exact ⟨h3.takes, h1, h2, hmem, h3.date.weekday, h3.time, (reachesDay_iff hf h1 h2 hmem).2 h4⟩

theorem isFirst_inMonths? (hf : f.WellFormed) (z : Zone) {year : Nat} (hy : year ∈ f.years) {months : List Nat}
    (hs : months.Pairwise (· < ·)) (hm : ∀ m ∈ months, m ∈ f.months) (day : Nat) {t : Time} (ht : t.IsValid) :
    IsFirst Moment.localSeconds (fun x => x.date.year = year ∧ x.date.month ∈ months ∧ f.Selects z x ∧
      (months.head? = some x.date.month → f.ReachesDay day t x)) (f.inMonths? z year months day t) := by
  induction months generalizing day t with
  | nil =>
    intro p h
    obtain ⟨-, h, -⟩ := h
    cases h
  | cons m months ih =>
    obtain ⟨hlt, hs⟩ := List.pairwise_cons.1 hs
    have hthis := isFirst_inMonth? hf z hy (hm m List.mem_cons_self) day ht
    have hlater := ih hs (fun k hk => hm k (List.mem_cons_of_mem m hk)) 1 (t := .midnight)
      ⟨by decide, by decide, by decide⟩
    refine (hthis.orElse hlater ?_).congr ?_
    · intro a b ha hb
      obtain ⟨h1, h2, h3, -⟩ := ha
      obtain ⟨h4, h5, h6, -⟩ := hb
      have hmonth : a.date.month < b.date.month := by
        rw [h2]
        exact hlt _ h5
      have hdate := (Date.dayNumber_lt_iff h3.valid h6.valid).2 (.inr ⟨h1.trans h4.symm, .inl hmonth⟩)
      exact localSeconds_le_of_dayNumber_lt (hf.isValid h3.time) hdate
    · intro x
      rw [List.mem_cons, List.head?_cons, Option.some.injEq]
      constructor
      · intro h
        rcases h with ⟨h1, h2, h3, h4⟩ | ⟨h1, h2, h3, -⟩
        · exact ⟨h1, .inl h2, h3, fun _ => h4⟩
        · refine ⟨h1, .inr h2, h3, ?_⟩
          intro h
          exact absurd (hlt _ h2) (by rw [h]; exact Nat.lt_irrefl _)
      · intro h
        rcases h with ⟨h1, h2 | h2, h3, h4⟩
        · exact .inl ⟨h1, h2, h3, h4 h2.symm⟩
        · exact .inr ⟨h1, h2, h3, fun _ => h3.reachesDay_one⟩

/-! ## Years -/

theorem isFirst_inYear? (hf : f.WellFormed) (z : Zone) {year : Nat} (hy : year ∈ f.years) {floor : Floor}
    (ht : floor.time.IsValid) :
    IsFirst Moment.localSeconds (fun x => x.date.year = year ∧ f.Selects z x ∧ f.Reaches floor x)
      (f.inYear? z year floor) := by
  have hs := hf.months.sorted.filter (floor.month ≤ ·)
  have hm : ∀ m ∈ f.months.filter (floor.month ≤ ·), m ∈ f.months := fun m h => (List.mem_filter.1 h).1
  unfold inYear?
  by_cases hfloor : floor.month ∈ f.months
  · rw [if_pos (List.contains_iff_mem.2 hfloor)]
    refine (isFirst_inMonths? hf z hy hs hm floor.day ht).congr ?_
    intro x
    have hhead := head?_of_least hs (mem_filter_le.2 ⟨hfloor, Nat.le_refl _⟩) fun m h => (mem_filter_le.1 h).2
    rw [hhead, mem_filter_le, Option.some.injEq]
    constructor
    · intro h
      obtain ⟨h1, ⟨-, h2⟩, h3, h4⟩ := h
      refine ⟨h1, h3, ?_⟩
      rcases Nat.lt_or_eq_of_le h2 with h | h
      · exact .inl h
      · exact .inr ⟨h.symm, h4 h⟩
    · intro h
      rcases h with ⟨h1, h3, h | ⟨h, h4⟩⟩
      · exact ⟨h1, ⟨h3.date.month, Nat.le_of_lt h⟩, h3, fun he => absurd he (Nat.ne_of_lt h)⟩
      · exact ⟨h1, ⟨h3.date.month, Nat.le_of_eq h.symm⟩, h3, fun _ => h4⟩
  · rw [if_neg fun h => hfloor (List.contains_iff_mem.1 h)]
    refine (isFirst_inMonths? hf z hy hs hm 1 ⟨by decide, by decide, by decide⟩).congr ?_
    intro x
    rw [mem_filter_le]
    constructor
    · intro h
      obtain ⟨h1, ⟨-, h2⟩, h3, -⟩ := h
      refine ⟨h1, h3, .inl (Nat.lt_of_le_of_ne h2 ?_)⟩
      intro h
      exact hfloor (h ▸ h3.date.month)
    · intro h
      rcases h with ⟨h1, h3, h | ⟨h, -⟩⟩
      · exact ⟨h1, ⟨h3.date.month, Nat.le_of_lt h⟩, h3, fun _ => h3.reachesDay_one⟩
      · exact absurd (h ▸ h3.date.month) hfloor

/-- **The search finds the first selected moment** in some years, of which the first counts from the floor on -/
theorem isFirst_inYears? (hf : f.WellFormed) (z : Zone) {years : List Nat} (hs : years.Pairwise (· < ·))
    (hy : ∀ y ∈ years, y ∈ f.years) {floor : Floor} (ht : floor.time.IsValid) :
    IsFirst Moment.localSeconds (fun x => (∃ y ∈ years, (y : Int) = x.date.year) ∧ f.Selects z x ∧
      ∀ y, years.head? = some y → (y : Int) = x.date.year → f.Reaches floor x) (f.inYears? z years floor) := by
  induction years generalizing floor with
  | nil =>
    intro p h
    obtain ⟨⟨y, h, -⟩, -⟩ := h
    cases h
  | cons y years ih =>
    obtain ⟨hlt, hs⟩ := List.pairwise_cons.1 hs
    have hthis := isFirst_inYear? hf z (hy y List.mem_cons_self) ht
    have hlater : IsFirst Moment.localSeconds _ (f.inYears? z years .bottom) :=
      ih hs (fun k hk => hy k (List.mem_cons_of_mem y hk)) ⟨by decide, by decide, by decide⟩
    refine (hthis.orElse hlater ?_).congr ?_
    · intro a b ha hb
      obtain ⟨h1, h2, -⟩ := ha
      obtain ⟨⟨w, h4, h5⟩, h6, -⟩ := hb
      refine localSeconds_le_of_dayNumber_lt (hf.isValid h2.time) ((Date.dayNumber_lt_iff h2.valid h6.valid).2 (.inl ?_))
      rw [h1, ← h5]
      exact Int.ofNat_lt.2 (hlt w h4)
    · intro x
      rw [List.head?_cons]
      constructor
      · intro h
        rcases h with ⟨h1, h2, h3⟩ | ⟨⟨w, h1, h2⟩, h3, -⟩
        · exact ⟨⟨y, List.mem_cons_self, h1.symm⟩, h2, fun _ _ _ => h3⟩
        · refine ⟨⟨w, List.mem_cons_of_mem y h1, h2⟩, h3, ?_⟩
          intro v hv he
          rw [Option.some.injEq] at hv
          have := hlt w h1
          omega
      · intro h
        obtain ⟨⟨w, h1, h2⟩, h3, h4⟩ := h
        rcases List.mem_cons.1 h1 with rfl | h1
        · exact .inl ⟨h2.symm, h3, h4 w rfl h2⟩
        · exact .inr ⟨⟨w, h1, h2⟩, h3, fun _ _ _ => h3.reaches_bottom⟩

end SheetPost.Cron.Fields
