/-
The items of a day-of-week field as an operator writes them, with Sunday as 0 or 7, and the days that each of them
stands for. Renumbered for a week that begins with Sunday as 1, an item stands for the same days.

Main statement: `DayItem.exists_renumberItem?`.
-/
import SheetPost.Proofs.Cron.Values
import SheetPost.Proofs.Text.Numeral
import SheetPost.Proofs.Text.Search
import SheetPost.Proofs.Text.Words
import SheetPost.Schedule.Weekday

namespace SheetPost.Schedule.Weekday

open SheetPost.Text SheetPost.Cron

/-! ## Items -/

/-- a number in decimal digits, perhaps with zeros in front -/
structure Numeral where
  digits : List Char
  value : Nat
  reads : readDigits? 10 digits = some value

/-- a day from 0 to 7; the first and the last are Sunday -/
structure Day extends Numeral where
  le : value ≤ 7

/-- a step; it is not zero, and a number for the schedule's grammar -/
structure Step extends Numeral where
  pos : 0 < value
  le : value ≤ Grammar.maxNumber

/-- the names of the days; Sunday is 0 -/
def names : List (String × Nat) :=
  [("sun", 0), ("sunday", 0), ("mon", 1), ("monday", 1), ("tue", 2), ("tues", 2), ("tuesday", 2), ("wed", 3),
    ("wednesday", 3), ("thu", 4), ("thurs", 4), ("thursday", 4), ("fri", 5), ("friday", 5), ("sat", 6),
    ("saturday", 6)]

/-- a name of a day in letters of either case -/
structure DayName where
  letters : List Char
  day : Nat
  named : names.lookup (String.ofList (letters.map Char.toLower)) = some day

/-- days without a step -/
inductive Days where
  | day (n : Day)
  | range (a b : Day) (le : a.value ≤ b.value)
  | all

/-- an item of a day-of-week field -/
inductive DayItem where
  | days (d : Days) (step : Option Step)
  | name (n : DayName)

/-- how days are written -/
def Days.text : Days → List Char
  | .day n => n.digits
  | .range a b _ => a.digits ++ '-' :: b.digits
  | .all => ['*']

/-- a text with a step behind it, if there is one -/
def stepText (t : List Char) : Option Step → List Char
  | none => t
  | some step => t ++ '/' :: step.digits

/-- how an item is written -/
def DayItem.text : DayItem → List Char
  | .days d step => stepText d.text step
  | .name n => n.letters

/-- the step of an item that has none is 1 -/
def stepValue : Option Step → Nat
  | none => 1
  | some s => s.value

/-- the item stands for the day `w` from 0 to 6; a step behind a single day runs on to Saturday, and a range is counted
through before its end is taken for Sunday -/
def DayItem.Selects : DayItem → Nat → Prop
  | .days (.day n) none, w => w = n.value % 7
  | .days (.day n) (some s), w => Every s.value (n.value % 7) 6 w
  | .days (.range a b _) step, w => ∃ d, Every (stepValue step) a.value b.value d ∧ w = d % 7
  | .days .all step, w => Every (stepValue step) 0 6 w
  | .name n, w => w = n.day

/-! ## Numerals -/

theorem Numeral.not_mem (n : Numeral) {x : Char} (hx : x.isDigit = false) : x ∉ n.digits :=
  not_mem_of_readDigits? n.reads hx

theorem Numeral.isNumber (n : Numeral) (h : n.value ≤ Grammar.maxNumber) : Grammar.IsNumber n.value n.digits := by
  obtain ⟨hne, hall⟩ := isDigit_of_readDigits? n.reads
  exact ⟨n.digits, ⟨Grammar.padded_self _, hne, hall⟩, readUnsigned?_of_readDigits? n.reads h⟩

/-- the number that is printed -/
def Numeral.ofNat (n : Nat) : Numeral := ⟨decimal n, n, readDigits?_decimal n⟩

theorem isNumber_decimal {n : Nat} (h : n ≤ 7) : Grammar.IsNumber n (decimal n) :=
  (Numeral.ofNat n).isNumber (h.trans (by decide))

theorem Day.bound_digits (n : Day) : bound n.digits = .day n.value := by
  rw [bound, readUnsigned?_of_readDigits? n.reads (n.le.trans (by decide))]
  simp [n.le]

theorem Step.isNumber (s : Step) : Grammar.IsNumber s.value s.digits :=
  s.toNumeral.isNumber s.le

/-! ## Span and step -/

theorem Days.not_mem (d : Days) {x : Char} (hdigit : x.isDigit = false) (hhyphen : x ≠ '-') (hstar : x ≠ '*') :
    x ∉ d.text := by
  cases d with
  | day n => exact n.not_mem hdigit
  | range a b _ =>
    simp only [Days.text, List.mem_append, List.mem_cons, not_or]
    exact ⟨a.not_mem hdigit, hhyphen, b.not_mem hdigit⟩
  | all => simpa [Days.text] using hstar

theorem Days.not_mem_slash (d : Days) : '/' ∉ d.text := d.not_mem rfl (by decide) (by decide)

theorem cutStep_text (d : Days) (step : Option Step) :
    cutStep (DayItem.days d step).text = (d.text, step.map fun s => s.digits) := by
  cases step with
  | none => rw [DayItem.text, stepText, cutStep, cutAt_eq_none_iff.2 d.not_mem_slash, Option.map_none]
  | some s => rw [DayItem.text, stepText, cutStep, cutAt_append d.not_mem_slash, Option.map_some]

/-- the days end on Sunday as 7, having begun on `first` -/
def Days.toSunday? : Days → Option Nat
  | .range a b _ => if b.value = 7 then some a.value else none
  | _ => none

theorem rangeToSunday?_text (d : Days) : rangeToSunday? d.text = d.toSunday? := by
  cases d with
  | day n =>
    rw [Days.text, rangeToSunday?, cutAt_eq_none_iff.2 (n.not_mem rfl)]
    rfl
  | range a b _ =>
    rw [Days.text, rangeToSunday?, cutAt_append (a.not_mem rfl)]
    simp only [a.bound_digits, b.bound_digits, Days.toSunday?]
  | all => rfl

/-! ## Days in the new week -/

theorem every_succ (step a b d : Nat) : Every step (a + 1) (b + 1) d ↔ ∃ w, Every step a b w ∧ d = w + 1 := by
  constructor
  · rintro ⟨k, hd, hle⟩
    exact ⟨a + k * step, ⟨k, rfl, by omega⟩, by omega⟩
  · rintro ⟨w, ⟨k, rfl, hle⟩, rfl⟩
    exact ⟨k, by omega, by omega⟩

/-- an item of a span and perhaps a step -/
def withStep (s : Span) : Option Step → Item
  | none => .span s
  | some step => .stepped s step.value

theorem isItem_withStep {s : Span} {t : List Char} (h : Grammar.IsSpan s t) (step : Option Step) :
    Grammar.IsItem true (withStep s step) (stepText t step) := by
  cases step with
  | none => exact .span (.span h)
  | some step => exact .stepped (.span h) (Grammar.padded_self ['/']) step.isNumber

/-- a span that is not a single value stands for the values between its bounds, as far as the step takes them -/
theorem exists_values?_withStep {s : Span} {lo hi : Nat} (hpoint : ∀ n, s ≠ .point n) (hle : lo ≤ hi)
    (hs : s.values? .dayOfWeek = some (List.range' lo (hi - lo + 1))) (step : Option Step) :
    ∃ values, (withStep s step).values? .dayOfWeek = some values ∧ ∀ d, d ∈ values ↔ Every (stepValue step) lo hi d := by
  cases step with
  | none => exact ⟨_, hs, mem_between hle⟩
  | some step =>
    refine ⟨everyNth step.value 0 (List.range' lo (hi - lo + 1)), ?_, mem_everyNth_between step.pos hle⟩
    cases s with
    | point n => exact absurd rfl (hpoint n)
    | all | range a b | names a b => simp only [withStep, Item.values?, if_neg step.pos.ne', hs, Option.map_some]

/-! ## Renumbering -/

/-- the days of the new week that an item stands for -/
def DayItem.Shifted (i : DayItem) (d : Nat) : Prop := ∃ w, i.Selects w ∧ d = w + 1

/-- an item that does not end on Sunday as 7 keeps its step -/
theorem renumberItem?_days {d : Days} (hd : d.toSunday? = none) {t : List Char} (ht : renumberSpan? d.text = some t)
    (step : Option Step) : renumberItem? (DayItem.days d step).text = some (stepText t step) := by
  rw [renumberItem?, cutStep_text]
  simp only [rangeToSunday?_text, hd, ht, Option.map_some]
  cases step <;> rfl

theorem shift_le (n : Nat) : shift n ≤ 7 := Nat.mod_lt n (by decide)

theorem holds_shift (n : Nat) : Unit.holds .dayOfWeek (shift n) = true :=
  Unit.holds_iff.2 ⟨Nat.succ_pos _, shift_le n⟩

theorem between?_shift {a b : Nat} (ha : shift a ≤ b) (hb : b ≤ 7) :
    between? .dayOfWeek (shift a) b = some (List.range' (shift a) (b - shift a + 1)) := by
  have hholds : Unit.holds .dayOfWeek b = true := Unit.holds_iff.2 ⟨(Nat.succ_pos _).trans_le ha, hb⟩
  simp [between?, holds_shift, hholds, ha]

theorem stands_day (n : Day) (step : Option Step) :
    Grammar.Stands .dayOfWeek (stepText (decimal (shift n.value)) step) (DayItem.days (.day n) step).Shifted := by
  have hspan : Grammar.IsSpan (.point (shift n.value)) (decimal (shift n.value)) :=
    .point (isNumber_decimal (shift_le _))
  have hitem := isItem_withStep hspan step
  cases step with
  | none =>
    have hvalues : (Item.span (.point (shift n.value))).values? .dayOfWeek = some [shift n.value] := by
      simp [Item.values?, Span.values?, holds_shift]
    refine .of_item hitem hvalues fun d => ?_
    simp [DayItem.Shifted, DayItem.Selects, shift]
  | some s =>
    have hvalues : (Item.stepped (.point (shift n.value)) s.value).values? .dayOfWeek =
        some (everyNth s.value 0 (List.range' (shift n.value) (7 - shift n.value + 1))) := by
      simp only [Item.values?, if_neg s.pos.ne', Unit.high, between?_shift (shift_le _) (Nat.le_refl 7), Option.map_some]
    refine .of_item hitem hvalues fun d => ?_
    rw [mem_everyNth_between s.pos (shift_le _)]
    exact every_succ s.value (n.value % 7) 6 d

theorem stands_range (a b : Day) (h : a.value ≤ b.value) (hb : b.value ≠ 7) (step : Option Step) :
    Grammar.Stands .dayOfWeek (stepText (decimal (shift a.value) ++ '-' :: decimal (shift b.value)) step)
      (DayItem.days (.range a b h) step).Shifted := by
  have hle := b.le
  have hshift {n : Nat} (hn : n < 7) : shift n = n + 1 := by rw [shift, Nat.mod_eq_of_lt hn]
  have ha := hshift (n := a.value) (by omega)
  have hb' := hshift (n := b.value) (by omega)
  have hspan : Grammar.IsSpan (.range (shift a.value) (shift b.value))
      (decimal (shift a.value) ++ '-' :: decimal (shift b.value)) :=
    .range ⟨_, ['-'], _, isNumber_decimal (shift_le _), Grammar.padded_self _, isNumber_decimal (shift_le _), rfl⟩
  have hab : shift a.value ≤ shift b.value := by omega
  obtain ⟨values, hvalues, hiff⟩ := exists_values?_withStep (s := .range (shift a.value) (shift b.value))
    (fun _ => Span.noConfusion) hab (between?_shift hab (shift_le _)) step
  refine .of_item (isItem_withStep hspan step) hvalues fun d => ?_
  rw [hiff, ha, hb', every_succ, DayItem.Shifted]
  -- no day of the range is 7, so each is taken for itself
  refine exists_congr fun w => and_congr_left fun _ => ?_
  constructor
  · intro hw
    obtain ⟨k, hk, hle'⟩ := hw
    exact ⟨w, ⟨k, hk, hle'⟩, (Nat.mod_eq_of_lt (by omega)).symm⟩
  · rintro ⟨d', ⟨k, hk, hle'⟩, rfl⟩
    rw [Nat.mod_eq_of_lt (by omega)]
    exact ⟨k, hk, hle'⟩

theorem stands_all (step : Option Step) :
    Grammar.Stands .dayOfWeek (stepText ['*'] step) (DayItem.days .all step).Shifted := by
  have hspan : Grammar.IsSpan .all ['*'] := .all (Grammar.padded_self _)
  obtain ⟨values, hvalues, hiff⟩ := exists_values?_withStep (s := .all)
    (fun _ => Span.noConfusion) (by decide : 1 ≤ 7) rfl step
  refine .of_item (isItem_withStep hspan step) hvalues fun d => ?_
  rw [hiff]
  exact every_succ (stepValue step) 0 6 d

/-! ## Ranges that end on Sunday as 7 -/

theorem mem_daysToSunday {first step d : Nat} (hfirst : first ≤ 7) :
    d ∈ daysToSunday first step ↔ ∃ w, (∃ n, Every step first 7 n ∧ w = n % 7) ∧ d = w + 1 := by
  simp only [daysToSunday, List.mem_filter, List.mem_range'_1, List.any_eq_true, Bool.and_eq_true, beq_iff_eq]
  constructor
  · rintro ⟨-, n, ⟨hle, hlt⟩, hmod, rfl⟩
    obtain ⟨k, hk⟩ := Nat.dvd_of_mod_eq_zero hmod
    exact ⟨n % 7, ⟨n, ⟨k, by rw [Nat.mul_comm k, ← hk]; omega, by omega⟩, rfl⟩, rfl⟩
  · rintro ⟨w, ⟨n, ⟨k, hn, hle⟩, rfl⟩, rfl⟩
    have hmod : (n - first) % step = 0 := by rw [hn, Nat.add_sub_cancel_left, Nat.mul_mod_left]
    exact ⟨⟨by omega, by omega⟩, n, ⟨by omega, by omega⟩, hmod, rfl⟩

theorem listToSunday?_eq (first : Nat) (step : Option Step) :
    listToSunday? first (step.map fun s => s.digits) =
      some (join [','] ((daysToSunday first (stepValue step)).map decimal)) := by
  cases step with
  | none => rfl
  | some s =>
    have hread : readUnsigned? 10 maxStep s.digits = some s.value :=
      readUnsigned?_of_readDigits? s.reads (s.le.trans (by decide))
    simp [listToSunday?, hread, s.pos.ne', stepValue]

theorem stands_toSunday (a b : Day) (h : a.value ≤ b.value) (hb : b.value = 7) (step : Option Step) :
    Grammar.Stands .dayOfWeek (join [','] ((daysToSunday a.value (stepValue step)).map decimal))
      (DayItem.days (.range a b h) step).Shifted := by
  have hne : daysToSunday a.value (stepValue step) ≠ [] := by
    refine List.ne_nil_of_mem (a := a.value % 7 + 1) ((mem_daysToSunday a.le).2 ?_)
    exact ⟨a.value % 7, ⟨a.value, ⟨0, by omega, a.le⟩, rfl⟩, rfl⟩
  have hdays : ∀ d ∈ daysToSunday a.value (stepValue step), Grammar.Stands .dayOfWeek (decimal d) (· = d) := by
    intro d hd
    obtain ⟨w, ⟨n, -, rfl⟩, rfl⟩ := (mem_daysToSunday a.le).1 hd
    have hvalues : (Item.span (.point (shift n))).values? .dayOfWeek = some [shift n] := by
      simp [Item.values?, Span.values?, holds_shift]
    exact .of_item (.span (.span (.point (isNumber_decimal (shift_le n))))) hvalues fun d => List.mem_singleton
  refine (Grammar.Stands.join hne hdays).congr fun d => ?_
  rw [DayItem.Shifted]
  simp only [DayItem.Selects, hb, ← mem_daysToSunday a.le]
  simp

/-! ## Names -/

theorem isAlpha_of_isLower_toLower {c : Char} (h : c.toLower.isLower = true) : c.isAlpha = true := by
  rw [isAlpha_iff]
  rcases toLower_cases c with ⟨hc, -⟩ | ⟨-, hc⟩
  · exact .inl hc
  · exact .inr (hc ▸ h)

/-- what the names have in common -/
theorem names_spec : ∀ p ∈ names, p.1 ≠ "" ∧ p.1.toList.all Char.isLower = true ∧
    Cron.dayNames.lookup p.1 = some (p.2 + 1) ∧ p.2 ≤ 6 := by
  decide

theorem DayName.spec (n : DayName) : n.letters ≠ [] ∧ (∀ c ∈ n.letters, c.isAlpha = true) ∧
    Unit.named? .dayOfWeek n.letters = some (n.day + 1) ∧ n.day ≤ 6 := by
  obtain ⟨l, l', hnames, -⟩ := List.lookup_eq_some_iff.1 n.named
  obtain ⟨hne, hlower, hlookup⟩ := names_spec _ (by rw [hnames]; exact List.mem_append_right _ List.mem_cons_self)
  refine ⟨?_, fun c hc => ?_, hlookup⟩
  · intro hnil
    rw [hnil] at hne
    exact hne rfl
  · refine isAlpha_of_isLower_toLower (List.all_eq_true.1 hlower c.toLower ?_)
    rw [String.toList_ofList]
    exact List.mem_map_of_mem hc

theorem DayName.not_mem (n : DayName) {x : Char} (hx : x.isAlpha = false) : x ∉ n.letters := by
  intro hmem
  rw [n.spec.2.1 x hmem] at hx
  cases hx

theorem DayName.bound_letters (n : DayName) : bound n.letters = .text := by
  obtain ⟨hne, hall, -, -⟩ := n.spec
  obtain ⟨c, r, hletters⟩ := List.exists_cons_of_ne_nil hne
  have hread : readUnsigned? 10 255 n.letters = none := by
    have hdigits : readDigits? 10 n.letters = none := by
      rw [Option.eq_none_iff_forall_ne_some]
      intro v hv
      have hdigit := (isDigit_of_readDigits? hv).2 c (by rw [hletters]; exact List.mem_cons_self)
      rw [not_isDigit_of_isAlpha (hall c (by rw [hletters]; exact List.mem_cons_self))] at hdigit
      cases hdigit
    unfold readUnsigned?
    split
    · next r hplus => exact absurd (by rw [hplus]; exact List.mem_cons_self) (n.not_mem (x := '+') rfl)
    · simp only [hdigits, Option.filter_none]
  rw [bound, hread]

theorem stands_name (n : DayName) : Grammar.Stands .dayOfWeek n.letters (DayItem.name n).Shifted := by
  obtain ⟨hne, hall, hnamed, -⟩ := n.spec
  have hname : Grammar.IsName n.letters n.letters := ⟨Grammar.padded_self _, hne, hall⟩
  have hvalues : (Item.name n.letters).values? .dayOfWeek = some [n.day + 1] := by rw [Item.values?, hnamed]; rfl
  refine .of_item (.name hname) hvalues fun d => ?_
  simp [DayItem.Shifted, DayItem.Selects]

/-! ## Every item -/

/-- an item stands for days from 0 to 6 -/
theorem DayItem.le_of_selects {i : DayItem} {w : Nat} (h : i.Selects w) : w ≤ 6 := by
  cases i with
  | name n => exact h ▸ n.spec.2.2.2
  | days d step =>
    cases d with
    | day n =>
      cases step with
      | none =>
        rw [DayItem.Selects] at h
        omega
      | some s =>
        obtain ⟨k, -, hle⟩ := h
        exact hle
    | range a b _ =>
      obtain ⟨d, -, rfl⟩ := h
      omega
    | all =>
      obtain ⟨k, -, hle⟩ := h
      exact hle

theorem DayItem.holds_of_shifted {i : DayItem} {d : Nat} (h : i.Shifted d) : Unit.holds .dayOfWeek d = true := by
  obtain ⟨w, hw, rfl⟩ := h
  exact Unit.holds_iff.2 ⟨Nat.succ_pos w, Nat.succ_le_succ (DayItem.le_of_selects hw)⟩

/-- **An item renumbered for a week that begins with Sunday as 1 stands for the days that it stood for** -/
theorem DayItem.exists_renumberItem? (i : DayItem) :
    ∃ t, renumberItem? i.text = some t ∧ Grammar.Stands .dayOfWeek t i.Shifted := by
  cases i with
  | name n =>
    refine ⟨n.letters, ?_, stands_name n⟩
    have hslash : cutAt '/' n.letters = none := cutAt_eq_none_iff.2 (n.not_mem rfl)
    have hhyphen : cutAt '-' n.letters = none := cutAt_eq_none_iff.2 (n.not_mem rfl)
    simp only [renumberItem?, cutStep, DayItem.text, hslash, rangeToSunday?, hhyphen, renumberSpan?, n.bound_letters,
      Option.map_some]
  | days d step =>
    cases d with
    | day n =>
      have hspan : renumberSpan? (Days.day n).text = some (decimal (shift n.value)) := by
        simp only [renumberSpan?, Days.text, cutAt_eq_none_iff.2 (n.not_mem (x := '-') rfl), n.bound_digits]
      exact ⟨_, renumberItem?_days rfl hspan step, stands_day n step⟩
    | all => exact ⟨_, renumberItem?_days rfl rfl step, stands_all step⟩
    | range a b h =>
      by_cases hb : b.value = 7
      · refine ⟨_, ?_, stands_toSunday a b h hb step⟩
        rw [renumberItem?, cutStep_text]
        simp only [rangeToSunday?_text, Days.toSunday?, if_pos hb, listToSunday?_eq]
      · have hspan : renumberSpan? (Days.range a b h).text =
            some (decimal (shift a.value) ++ '-' :: decimal (shift b.value)) := by
          simp only [renumberSpan?, Days.text, cutAt_append (a.not_mem (x := '-') rfl), a.bound_digits, b.bound_digits]
        have hend : (Days.range a b h).toSunday? = none := if_neg hb
        exact ⟨_, renumberItem?_days hend hspan step, stands_range a b h hb step⟩

end SheetPost.Schedule.Weekday
