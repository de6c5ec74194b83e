/-
Triggers and the next of them. The search starts a second after the given moment. It finds the first trigger from there
on but for those it passes over (`PassedOver`): if the year it starts in is not selected, the month, day and time of the
start are a floor in the first year that is, and what lies below the floor in that year is never looked at. So the next
trigger is right just if none is passed over, which is always so if the year is selected, or if the search starts from a
trigger.

In a zone the search goes by what the clocks show: what it finds is not before its start on the clocks, and then it is
not before its start in time if the zone is forward.

Main statements: `isFirst_nextIn?` and `before_nextIn?` in a zone, and on a clock that keeps its distance from UTC
`isFirst_next?` and `isNext_next?_iff`.
-/
import SheetPost.Proofs.Cron.Search

namespace SheetPost.Cron.Fields

open SheetPost.Calendar

variable {f : Fields} {z : Zone} {now m : Moment} {offset : Int}

/-! ## Triggers -/

/-- a moment that a schedule names on a clock: a whole second of which every part is selected -/
structure IsTrigger (f : Fields) (offset : Int) (m : Moment) : Prop where
  valid : m.IsValid
  selected : f.selects m.date m.time = true
  nanos : m.nanos = 0
  offset : m.offset = offset

/-- the second from which on the search looks -/
def start (now : Moment) : Moment := .ofLocalSeconds (now.localSeconds + 1) now.nanos now.offset

/-- the month, day and time of a moment, below which a search from it on takes nothing in the first year -/
def floorOf (m : Moment) : Floor := ⟨m.date.month, m.date.day, m.time⟩

/-- the floor of the search after a moment -/
def startFloor (now : Moment) : Floor := floorOf (start now)

/-- a moment in the first selected year after that of the start, below the floor -/
structure PassedOver (f : Fields) (now m : Moment) : Prop where
  later : (start now).date.year < m.date.year
  first : ∀ y ∈ f.years, (start now).date.year ≤ y → m.date.year ≤ y
  below : ¬ f.Reaches (startFloor now) m

/-- what the next moment is meant to be: the first trigger after `now`, and nothing only if there is none -/
def IsNext (f : Fields) (now : Moment) : Option Moment → Prop
  | none => ∀ m, f.IsTrigger now.offset m → ¬ now.before m
  | some m => f.IsTrigger now.offset m ∧ now.before m ∧
      ∀ m', f.IsTrigger now.offset m' → now.before m' → ¬ m'.before m

theorem Selects.isTrigger (hf : f.WellFormed) (h : f.Selects (.fixed offset) m) : f.IsTrigger offset m := by
  obtain ⟨hnanos, hoffset⟩ := Zone.takes_fixed_iff.1 h.takes
  exact ⟨⟨h.valid, hf.isValid h.time⟩, selects_iff.2 ⟨h.date, h.time⟩, hnanos, hoffset⟩

theorem IsTrigger.selects (h : f.IsTrigger offset m) : f.Selects (.fixed offset) m := by
  obtain ⟨hdate, htime⟩ := selects_iff.1 h.selected
  exact ⟨Zone.takes_fixed_iff.2 ⟨h.nanos, h.offset⟩, h.valid.date, hdate, htime⟩

theorem start_valid (now : Moment) : (start now).IsValid := Moment.ofLocalSeconds_valid _ _ _

theorem localSeconds_start (now : Moment) : (start now).localSeconds = now.localSeconds + 1 :=
  Moment.localSeconds_ofLocalSeconds _ _ _

/-- a whole second is after a moment just if it is not before the next second of the same clock -/
theorem before_iff (ho : m.offset = now.offset) (hn : m.nanos = 0) :
    now.before m ↔ (start now).localSeconds ≤ m.localSeconds := by
  rw [localSeconds_start]
  unfold Moment.before Moment.utcSeconds
  rw [ho, hn]
  omega

/-- in the order of the calendar, the later of two moments is in a later year or in the same -/
theorem year_le {a b : Moment} (ha : a.IsValid) (hb : b.IsValid) (h : a.localSeconds ≤ b.localSeconds) :
    a.date.year ≤ b.date.year := by
  by_contra hlt
  have hdate := (Date.dayNumber_lt_iff hb.date ha.date).2 (.inl (Int.not_le.1 hlt))
  have := (Moment.localSeconds_lt_iff hb ha).2 (.inl hdate)
  omega

theorem lt_of_year_lt {a b : Moment} (ha : a.IsValid) (hb : b.IsValid) (h : a.date.year < b.date.year) :
    a.localSeconds < b.localSeconds := by
  by_contra hle
  have := year_le hb ha (Int.not_lt.1 hle)
  omega

/-- in one year moments are ordered by month, day and time -/
theorem localSeconds_le_iff {a b : Moment} (ha : a.IsValid) (hb : b.IsValid) (hy : a.date.year = b.date.year) :
    a.localSeconds ≤ b.localSeconds ↔ a.date.month < b.date.month ∨ a.date.month = b.date.month ∧
      (a.date.day < b.date.day ∨ a.date.day = b.date.day ∧ a.time.seconds ≤ b.time.seconds) := by
  have h1 := Moment.localSeconds_lt_iff hb ha
  have h2 := Date.dayNumber_lt_iff ha.date hb.date
  have h3 := Date.dayNumber_lt_iff hb.date ha.date
  omega

/-! ## The floor -/

/-- in the year that the floor comes from it is the order of the calendar -/
theorem le_iff_reaches {a : Moment} (ha : a.IsValid) (hf : f.WellFormed) (hm : f.Selects z m)
    (hy : a.date.year = m.date.year) : a.localSeconds ≤ m.localSeconds ↔ f.Reaches (floorOf a) m := by
  have hlen := ((Date.isValid_iff _).1 ha.date).2.2.2
  rw [localSeconds_le_iff ha ⟨hm.valid, hf.isValid hm.time⟩ hy]
  unfold Reaches ReachesDay floorOf
  simp only
  constructor
  · intro h
    rcases h with h | ⟨h, hd⟩
    · exact .inl h
    · rw [hy, h] at hlen
      rw [Nat.min_eq_left hlen]
      refine .inr ⟨h.symm, ?_⟩
      rcases hd with hd | ⟨hd, ht⟩
      · exact .inl hd
      · exact .inr ⟨hd.symm, fun _ => ht⟩
  · intro h
    rcases h with h | ⟨h, hd⟩
    · exact .inl h
    · rw [hy, ← h] at hlen
      rw [Nat.min_eq_left hlen] at hd
      refine .inr ⟨h.symm, ?_⟩
      rcases hd with hd | ⟨hd, ht⟩
      · exact .inl hd
      · exact .inr ⟨hd.symm, ht (hd ▸ hm.date.day)⟩

/-- what lies behind something above the floor in the same year is above the floor -/
theorem Reaches.mono {floor : Floor} {a b : Moment} (ha : a.IsValid) (hb : b.IsValid) (hy : a.date.year = b.date.year)
    (hab : a.localSeconds ≤ b.localSeconds) (h : f.Reaches floor a) :
    f.Reaches floor b := by
  rw [localSeconds_le_iff ha hb hy] at hab
  unfold Reaches ReachesDay at *
  rcases hab with hlt | ⟨hm, hday⟩
  · exact .inl (by omega)
  · rw [← hm, ← hy]
    rcases h with h | ⟨h, hd⟩
    · exact .inl h
    · refine .inr ⟨h, ?_⟩
      rcases hd with hd | ⟨hd, ht⟩
      · exact .inl (by omega)
      · rcases hday with hlt | ⟨he, hle⟩
        · exact .inl (by omega)
        · exact .inr ⟨by omega, fun hmem => Nat.le_trans (ht hmem) hle⟩

/-! ## The search -/

theorem start_year_nonneg (hv : now.IsValid) (hy : 0 ≤ now.date.year) : 0 ≤ (start now).date.year := by
  have h := localSeconds_start now
  have := year_le hv (start_valid now) (by omega)
  omega

theorem le_of_head? {values : List Nat} (hs : values.Pairwise (· < ·)) {n v : Nat} (hn : values.head? = some n)
    (hv : v ∈ values) : n ≤ v := by
  obtain ⟨rest, rfl⟩ := List.head?_eq_some_iff.1 hn
  rcases List.mem_cons.1 hv with rfl | hv
  · exact Nat.le_refl v
  · exact Nat.le_of_lt ((List.pairwise_cons.1 hs).1 v hv)

/-- the years that a search from `a` on looks through -/
def yearsFrom (f : Fields) (a : Moment) : List Nat := f.years.filter (a.date.year.toNat ≤ ·)

theorem mem_yearsFrom {a : Moment} (hy : 0 ≤ a.date.year) {y : Nat} :
    y ∈ f.yearsFrom a ↔ y ∈ f.years ∧ a.date.year ≤ y := by
  rw [yearsFrom, mem_filter_le]
  exact and_congr_right fun _ => by omega

theorem head?_yearsFrom {a : Moment} (hf : f.WellFormed) (hy : 0 ≤ a.date.year) {y : Nat} (hmem : y ∈ f.years)
    (hle : a.date.year ≤ y) (hleast : ∀ z ∈ f.years, a.date.year ≤ z → y ≤ z) : (f.yearsFrom a).head? = some y :=
  head?_of_least (hf.years.sorted.filter _) ((mem_yearsFrom hy).2 ⟨hmem, hle⟩) fun z hz =>
    hleast z ((mem_yearsFrom hy).1 hz).1 ((mem_yearsFrom hy).1 hz).2

/-- a search from `a` on looks at a moment: in the first year that it looks through only from the floor on -/
structure Searched (f : Fields) (a m : Moment) : Prop where
  year : ∃ y ∈ f.yearsFrom a, (y : Int) = m.date.year
  reaches : ∀ y, (f.yearsFrom a).head? = some y → (y : Int) = m.date.year → f.Reaches (floorOf a) m

/-- the second in a zone from which on the search looks -/
def startIn (z : Zone) (now : Moment) : Moment := z.atUtc (now.utcSeconds + 1) now.nanos

theorem startIn_valid (z : Zone) (now : Moment) : (startIn z now).IsValid := Zone.atUtc_valid _ _ _

theorem startIn_fixed (now : Moment) : startIn (.fixed now.offset) now = start now := by
  have hsame : now.utcSeconds + 1 + now.offset = now.localSeconds + 1 := by
    unfold Moment.utcSeconds
    omega
  unfold startIn start Zone.atUtc Zone.fixed
  rw [hsame]

/-- **The search finds the first moment that it looks at** of those that the clocks show and the fields select -/
theorem isFirst_nextIn? (hf : f.WellFormed) (z : Zone) (hy : 0 ≤ (startIn z now).date.year) :
    IsFirst Moment.localSeconds (fun m => f.Selects z m ∧ f.Searched (startIn z now) m) (f.nextIn? z now) := by
  have htime : (floorOf (startIn z now)).time.IsValid := (startIn_valid z now).time
  have hsearch := isFirst_inYears? hf z (hf.years.sorted.filter ((startIn z now).date.year.toNat ≤ ·))
    (fun y h => (List.mem_filter.1 h).1) htime
  have hnext : f.nextIn? z now = f.inYears? z (f.yearsFrom (startIn z now)) (floorOf (startIn z now)) :=
    if_neg (Int.not_lt.2 hy)
  rw [hnext]
  refine hsearch.congr fun m => ⟨?_, ?_⟩
  · intro h
    obtain ⟨h1, h2, h3⟩ := h
    exact ⟨h2, h1, h3⟩
  · intro h
    obtain ⟨h1, h2, h3⟩ := h
    exact ⟨h2, h1, h3⟩

/-- what the search looks at is not before its start -/
theorem Searched.le {a : Moment} (hf : f.WellFormed) (ha : a.IsValid) (hy : 0 ≤ a.date.year) (hm : f.Selects z m)
    (h : f.Searched a m) : a.localSeconds ≤ m.localSeconds := by
  obtain ⟨y, hyears, he⟩ := h.year
  obtain ⟨hyf, hle⟩ := (mem_yearsFrom hy).1 hyears
  rcases Int.lt_or_eq_of_le hle with hlt | heq
  · exact Int.le_of_lt (lt_of_year_lt ha ⟨hm.valid, hf.isValid hm.time⟩ (he ▸ hlt))
  · refine (le_iff_reaches ha hf hm (heq.trans he)).2 (h.reaches y ?_ he)
    exact head?_yearsFrom hf hy hyf hle fun z _ hz => by omega

/-- there is no next moment before the first year -/
theorem startIn_year_nonneg (h : f.nextIn? z now = some m) : 0 ≤ (startIn z now).date.year := by
  by_contra hy
  have hnone : f.nextIn? z now = none := if_pos (Int.not_le.1 hy)
  rw [hnone] at h
  cases h

/-- **In a forward zone the next moment is later than now** -/
theorem before_nextIn? (hz : z.Forward) (hf : f.WellFormed) (h : f.nextIn? z now = some m) : now.before m := by
  have hy := startIn_year_nonneg h
  have hfirst := isFirst_nextIn? hf z hy
  rw [h] at hfirst
  obtain ⟨⟨hm, hsearched⟩, -⟩ := hfirst
  have hle := hsearched.le hf (startIn_valid z now) hy hm
  rw [startIn, Zone.localSeconds_atUtc] at hle
  have hlater : now.utcSeconds + 1 ≤ m.utcSeconds := hz _ _ _ hle hm.takes.2
  unfold Moment.before
  omega

/-! ## The search on one clock -/

/-- what the search looks at are the triggers after `now` that are not passed over -/
theorem searched_iff (hf : f.WellFormed) (hy : 0 ≤ (start now).date.year) (hm : f.IsTrigger now.offset m) :
    f.Searched (start now) m ↔ now.before m ∧ ¬ f.PassedOver now m := by
  constructor
  · intro h
    refine ⟨(before_iff hm.offset hm.nanos).2 (h.le hf (start_valid now) hy hm.selects), fun hp => ?_⟩
    obtain ⟨y, hyears, he⟩ := h.year
    obtain ⟨hyf, hle⟩ := (mem_yearsFrom hy).1 hyears
    refine hp.below (h.reaches y ?_ he)
    exact head?_yearsFrom hf hy hyf hle fun z hz hzle => by have := hp.first z hz hzle; omega
  · intro h
    obtain ⟨hbefore, hnot⟩ := h
    rw [before_iff hm.offset hm.nanos] at hbefore
    have hle := year_le (start_valid now) hm.valid hbefore
    obtain ⟨y, hyf, he⟩ := hm.selects.date.year
    refine ⟨⟨y, (mem_yearsFrom hy).2 ⟨hyf, he ▸ hle⟩, he⟩, ?_⟩
    intro z hz hze
    rcases Int.lt_or_eq_of_le hle with hlt | heq
    · by_contra hbelow
      refine hnot ⟨hlt, fun w hw hwle => ?_, hbelow⟩
      have := le_of_head? (hf.years.sorted.filter _) hz ((mem_yearsFrom hy).2 ⟨hw, hwle⟩)
      omega
    · exact (le_iff_reaches (start_valid now) hf hm.selects heq).1 hbefore

/-- **The search finds the first trigger after a moment, but for those it passes over** -/
theorem isFirst_next? (hf : f.WellFormed) (hy : 0 ≤ (start now).date.year) :
    IsFirst Moment.localSeconds (fun m => f.IsTrigger now.offset m ∧ now.before m ∧ ¬ f.PassedOver now m)
      (f.next? now) := by
  have hstart : 0 ≤ (startIn (.fixed now.offset) now).date.year := by rwa [startIn_fixed]
  have hfirst := isFirst_nextIn? hf (.fixed now.offset) hstart
  rw [startIn_fixed] at hfirst
  refine hfirst.congr fun m => ⟨?_, ?_⟩
  · intro h
    obtain ⟨hselects, hsearched⟩ := h
    have htrigger := hselects.isTrigger hf
    exact ⟨htrigger, (searched_iff hf hy htrigger).1 hsearched⟩
  · intro h
    obtain ⟨htrigger, hrest⟩ := h
    exact ⟨htrigger.selects, (searched_iff hf hy htrigger).2 hrest⟩

theorem PassedOver.before (hm : f.IsTrigger now.offset m) (h : f.PassedOver now m) : now.before m :=
  (before_iff hm.offset hm.nanos).2 (Int.le_of_lt (lt_of_year_lt (start_valid now) hm.valid h.later))

theorem IsTrigger.before_iff {a b : Moment} (ha : f.IsTrigger offset a) (hb : f.IsTrigger offset b) :
    a.before b ↔ a.localSeconds < b.localSeconds := by
  unfold Moment.before Moment.utcSeconds
  rw [ha.offset, hb.offset, ha.nanos, hb.nanos]
  omega

/-- what comes after the start and before something that is passed over is passed over as well -/
theorem PassedOver.of_le {a b : Moment} (ha : f.IsTrigger now.offset a) (hb : f.IsTrigger now.offset b)
    (hbefore : now.before a) (hle : a.localSeconds ≤ b.localSeconds) (h : f.PassedOver now b) :
    f.PassedOver now a := by
  obtain ⟨y, hyf, he⟩ := ha.selects.date.year
  have he : (y : Int) = a.date.year := he
  have hstart := year_le (start_valid now) ha.valid ((Fields.before_iff ha.offset ha.nanos).1 hbefore)
  have hyear : a.date.year = b.date.year := by
    have := h.first y hyf (he ▸ hstart)
    have := year_le ha.valid hb.valid hle
    omega
  exact ⟨hyear ▸ h.later, hyear ▸ h.first, fun hreach => h.below (hreach.mono ha.valid hb.valid hyear hle)⟩

/-- **The next trigger is right just if none is passed over** -/
theorem isNext_next?_iff (hf : f.WellFormed) (hy : 0 ≤ (start now).date.year) :
    f.IsNext now (f.next? now) ↔ ∀ m, f.IsTrigger now.offset m → ¬ f.PassedOver now m := by
  have hfirst := isFirst_next? hf hy
  cases hr : f.next? now with
  | none =>
    rw [hr] at hfirst
    constructor
    · intro hnone m hm hp
      exact hnone m hm (hp.before hm)
    · intro hnot m hm hbefore
      exact hfirst m ⟨hm, hbefore, hnot m hm⟩
  | some a =>
    rw [hr] at hfirst
    obtain ⟨⟨ha, habefore, hanot⟩, hleast⟩ := hfirst
    constructor
    · intro h m hm hp
      obtain ⟨-, -, hno⟩ := h
      have hle := hno m hm (hp.before hm)
      rw [hm.before_iff ha, Int.not_lt] at hle
      exact hanot (hp.of_le ha hm habefore hle)
    · intro hnot
      refine ⟨ha, habefore, ?_⟩
      intro m hm hbefore
      rw [hm.before_iff ha, Int.not_lt]
      exact hleast m ⟨hm, hbefore, hnot m hm⟩

/-! ## One trigger after the other -/

theorem not_passedOver_of_mem_years {y : Nat} (hy : y ∈ f.years) (he : (y : Int) = (start now).date.year) :
    ¬ f.PassedOver now m := by
  intro h
  have := h.first y hy (Int.le_of_eq he.symm)
  have := h.later
  omega

/-- the year begins with its first second -/
theorem start_eq_newYear (hv : now.IsValid) (h : now.date.year < (start now).date.year) : startFloor now = .bottom := by
  have hmidnight : Time.midnight.IsValid := ⟨by decide, by decide, by decide⟩
  have hdate : (⟨(start now).date.year, 1, 1⟩ : Date).isValid = true :=
    (Date.isValid_iff _).2 ⟨Nat.le_refl 1, by show 1 ≤ 12; decide, Nat.le_refl 1, daysInMonth_pos _ _⟩
  have hnewYear : Moment.IsValid ⟨⟨(start now).date.year, 1, 1⟩, .midnight, (start now).nanos, (start now).offset⟩ :=
    ⟨hdate, hmidnight⟩
  have hlt := lt_of_year_lt hv hnewYear h
  have hsucc := localSeconds_start now
  have hle := (localSeconds_le_iff hnewYear (start_valid now) rfl).2 (by
    obtain ⟨h1, -, h3, -⟩ := (Date.isValid_iff _).1 (start_valid now).date
    have : Time.midnight.seconds = 0 := rfl
    simp only
    omega)
  have heq := Moment.eq_of_localSeconds_eq (start_valid now) hnewYear rfl rfl (by omega)
  unfold startFloor
  rw [heq]
  rfl

/-- a search that starts from a trigger passes nothing over -/
theorem IsTrigger.not_passedOver (hn : f.IsTrigger offset now) (hm : f.IsTrigger offset m) : ¬ f.PassedOver now m := by
  intro h
  have hsucc := localSeconds_start now
  have hle := year_le hn.valid (start_valid now) (by omega)
  rcases Int.lt_or_eq_of_le hle with hlt | heq
  · refine h.below ?_
    rw [start_eq_newYear hn.valid hlt]
    exact hm.selects.reaches_bottom
  · obtain ⟨y, hy, he⟩ := hn.selects.date.year
    exact not_passedOver_of_mem_years hy (he.trans heq) h

/-- from a trigger on, the search finds the first of all that are left -/
theorem IsTrigger.isFirst_next? (hf : f.WellFormed) (hn : f.IsTrigger offset now) :
    IsFirst Moment.localSeconds (fun m => f.IsTrigger offset m ∧ now.before m) (f.next? now) := by
  have hyear : 0 ≤ now.date.year := by
    obtain ⟨y, -, he⟩ := hn.selects.date.year
    have he : (y : Int) = now.date.year := he
    omega
  refine (Fields.isFirst_next? hf (start_year_nonneg hn.valid hyear)).congr ?_
  intro m
  rw [hn.offset]
  constructor
  · intro h
    obtain ⟨hm, hbefore, -⟩ := h
    exact ⟨hm, hbefore⟩
  · intro h
    obtain ⟨hm, hbefore⟩ := h
    exact ⟨hm, hbefore, hn.not_passedOver hm⟩

end SheetPost.Cron.Fields
