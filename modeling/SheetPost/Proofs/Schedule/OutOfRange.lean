/-
Numbers in a day-of-week field that are no day. Those from 8 to 255 are refused as such; greater ones go to the grammar
of cron as they stand, and no month and no weekday has them. What is left is that the grammar takes the end of the
field for a year, which it does only where one thing ends and another begins without a sign between them.

Main statement: `parse_refuses_iff`.
-/
import SheetPost.Proofs.Cron.Divided
import SheetPost.Proofs.Schedule.DayItem
import SheetPost.Proofs.Schedule.Tokens

namespace SheetPost.Schedule

open SheetPost.Text SheetPost.Cron

namespace Weekday

/-! ## Numbers of a field -/

/-- the number is the day of a span or one of its two bounds -/
inductive IsBoundOf (m : Numeral) : List Char → Prop where
  | day : IsBoundOf m m.digits
  | first (b : List Char) : IsBoundOf m (m.digits ++ '-' :: b)
  | last {a : List Char} : '-' ∉ a → IsBoundOf m (a ++ '-' :: m.digits)

/-- the number stands in the field for a day: by itself or as a bound, whatever stands behind a slash or in the other
items -/
def Names (w : List Char) (m : Numeral) : Prop :=
  ∃ span step, span ++ step ∈ split (· == ',') w ∧ '/' ∉ span ∧ (∀ c ∈ step.head?, c = '/') ∧ IsBoundOf m span

theorem Numeral.bound_digits {m : Numeral} (hm : 7 < m.value) :
    bound m.digits = if m.value ≤ 255 then .outside else .text := by
  rw [bound, readUnsigned?_of_not_mem (m.not_mem rfl), m.reads, Option.filter_some]
  split_ifs <;> simp_all

/-! ## Renumbering -/

/-- a range of which not both bounds are days stays as it is, if it is not refused -/
theorem of_not_days {span a b : List Char} (hcut : cutAt '-' span = some (a, b))
    (hdays : ∀ p q, bound a = .day p → bound b ≠ .day q) :
    rangeToSunday? span = none ∧
      ∀ t, renumberSpan? span = some t → t = span ∧ bound a ≠ .outside ∧ bound b ≠ .outside := by
  rw [rangeToSunday?, renumberSpan?, hcut]
  cases ha : bound a <;> cases hb : bound b <;> simp_all

/-- a span with a number that is no day stays as it is, if it is not refused -/
theorem IsBoundOf.of_renumberSpan? {m : Numeral} {span : List Char} (h : IsBoundOf m span) (hm : 7 < m.value) :
    rangeToSunday? span = none ∧ ∀ t, renumberSpan? span = some t → t = span ∧ 255 < m.value := by
  have hbound := m.bound_digits hm
  have hday : ∀ n, bound m.digits ≠ .day n := by
    intro n
    rw [hbound]
    split_ifs <;> exact Bound.noConfusion
  have hlarge : bound m.digits ≠ .outside → 255 < m.value := by
    rw [hbound]
    split_ifs with hle
    · exact fun h => absurd rfl h
    · exact fun _ => Nat.lt_of_not_le hle
  cases h with
  | day =>
    have hcut : cutAt '-' m.digits = none := cutAt_eq_none_iff.2 (m.not_mem rfl)
    rw [rangeToSunday?, renumberSpan?, hcut]
    refine ⟨rfl, fun t ht => ?_⟩
    cases hb : bound m.digits with
    | day n => exact absurd hb (hday n)
    | text =>
      simp only [hb, Option.some.injEq] at ht
      exact ⟨ht.symm, hlarge (by rw [hb]; exact Bound.noConfusion)⟩
    | outside => simp [hb] at ht
  | first b =>
    obtain ⟨hsunday, hspan⟩ := of_not_days (cutAt_append (m.not_mem rfl)) fun p _ hp => absurd hp (hday p)
    exact ⟨hsunday, fun t ht => ⟨(hspan t ht).1, hlarge (hspan t ht).2.1⟩⟩
  | last ha =>
    obtain ⟨hsunday, hspan⟩ := of_not_days (cutAt_append ha) fun _ q _ => hday q
    exact ⟨hsunday, fun t ht => ⟨(hspan t ht).1, hlarge (hspan t ht).2.2⟩⟩

theorem IsBoundOf.of_renumberItem? {m : Numeral} {span step t : List Char} (h : IsBoundOf m span) (hm : 7 < m.value)
    (hslash : '/' ∉ span) (hstep : ∀ c ∈ step.head?, c = '/') (ht : renumberItem? (span ++ step) = some t) :
    t = span ++ step ∧ 255 < m.value := by
  obtain ⟨hsunday, hspan⟩ := h.of_renumberSpan? hm
  cases step with
  | nil =>
    rw [List.append_nil] at ht ⊢
    simp only [renumberItem?, cutStep, cutAt_eq_none_iff.2 hslash, hsunday, Option.map_eq_some_iff] at ht
    obtain ⟨t', ht', rfl⟩ := ht
    exact hspan t' ht'
  | cons c step =>
    obtain rfl := hstep c rfl
    simp only [renumberItem?, cutStep, cutAt_append hslash, hsunday, Option.map_eq_some_iff] at ht
    obtain ⟨t', ht', rfl⟩ := ht
    obtain ⟨rfl, hlarge⟩ := hspan t' ht'
    exact ⟨rfl, hlarge⟩

/-! ## Where the number stands afterwards -/

/-- `d` stands in the text with nothing next to it but the signs that divide a field -/
def SetOff (d s : List Char) : Prop :=
  ∃ a b, s = a ++ (d ++ b) ∧ (∀ c ∈ a.getLast?, c ∈ [',', '-']) ∧ ∀ c ∈ b.head?, c ∈ [',', '-', '/']

theorem SetOff.trans {d e s : List Char} (h : SetOff d e) (h' : SetOff e s) : SetOff d s := by
  obtain ⟨a, b, rfl, ha, hb⟩ := h
  obtain ⟨a', b', rfl, ha', hb'⟩ := h'
  refine ⟨a' ++ a, b ++ b', by simp only [List.append_assoc], fun c hc => ?_, fun c hc => ?_⟩
  · rw [List.getLast?_append, Option.mem_def, Option.or_eq_some_iff] at hc
    rcases hc with hc | ⟨-, hc⟩
    · exact ha c hc
    · exact ha' c hc
  · rw [List.head?_append, Option.mem_def, Option.or_eq_some_iff] at hc
    rcases hc with hc | ⟨-, hc⟩
    · exact hb c hc
    · exact hb' c hc

theorem IsBoundOf.setOff {m : Numeral} {span : List Char} (h : IsBoundOf m span) : SetOff m.digits span := by
  cases h with
  | day => exact ⟨[], [], by simp, by simp, by simp⟩
  | first b => exact ⟨[], '-' :: b, rfl, by simp, by simp⟩
  | @last a _ => exact ⟨a ++ ['-'], [], by simp, by simp, by simp⟩

/-- a number of a field that is no day stands in the renumbered field as it did, if the field is not refused -/
theorem Names.setOff {w t : List Char} {m : Numeral} (h : Names w m) (hm : 7 < m.value) (ht : renumber? w = some t) :
    SetOff m.digits t ∧ 255 < m.value := by
  obtain ⟨span, step, hmem, hslash, hstep, hbound⟩ := h
  obtain ⟨items, hitems, rfl⟩ := Option.map_eq_some_iff.1 ht
  obtain ⟨item, hitem, hrenumber⟩ := (exists_of_mapM hitems).1 _ hmem
  obtain ⟨rfl, hlarge⟩ := hbound.of_renumberItem? hm hslash hstep hrenumber
  have hspan : SetOff span (span ++ step) := ⟨[], step, rfl, by simp, fun c hc => by simp [hstep c hc]⟩
  have hjoin : SetOff (span ++ step) (join [','] items) := by
    obtain ⟨a, b, he, ha, hb⟩ := exists_join_of_mem (x := ',') hitem
    exact ⟨a, b, he, fun c hc => by simp [ha c hc], fun c hc => by simp [hb c hc]⟩
  exact ⟨hbound.setOff.trans (hspan.trans hjoin), hlarge⟩

/-! ## Signs -/

theorem divided_decimal (n : Nat) : Grammar.Divided (decimal n) :=
  Grammar.divided_of_digits (isDigit_of_readDigits? (readDigits?_decimal n)).2

theorem divided_of_listToSunday? {first : Nat} {step : Option (List Char)} {t : List Char}
    (h : listToSunday? first step = some t) : Grammar.Divided t := by
  have hlist : ∀ n, Grammar.Divided (join [','] ((daysToSunday first n).map decimal)) := by
    intro n
    apply Grammar.Divided.join
    intro p hp
    obtain ⟨d, -, rfl⟩ := List.mem_map.1 hp
    exact divided_decimal d
  cases step with
  | none =>
    cases h
    exact hlist 1
  | some s =>
    simp only [listToSunday?] at h
    split at h
    · next n _ =>
      obtain ⟨-, h⟩ := Option.ite_none_left_eq_some.1 h
      cases h
      exact hlist n
    · cases h

theorem divided_of_renumberSpan? {s t : List Char} (hs : Grammar.Divided s) (h : renumberSpan? s = some t) :
    Grammar.Divided t := by
  unfold renumberSpan? at h
  split at h
  · split at h
    · cases h
    · cases h
    · cases h
      exact (Grammar.divided_append_sign_iff (by decide)).2 ⟨divided_decimal _, divided_decimal _⟩
    · cases h
      exact hs
  · split at h
    · cases h
    · cases h
      exact divided_decimal _
    · cases h
      exact hs

theorem divided_of_renumberItem? {s t : List Char} (hs : Grammar.Divided s) (h : renumberItem? s = some t) :
    Grammar.Divided t := by
  unfold renumberItem? cutStep at h
  cases hcut : cutAt '/' s with
  | none =>
    simp only [hcut] at h
    split at h
    · exact divided_of_listToSunday? h
    · obtain ⟨t', ht', rfl⟩ := Option.map_eq_some_iff.1 h
      exact divided_of_renumberSpan? hs ht'
  | some p =>
    obtain ⟨span, step⟩ := p
    simp only [hcut] at h
    obtain ⟨rfl, -⟩ := cutAt_eq_some hcut
    obtain ⟨hspan, hstep⟩ := (Grammar.divided_append_sign_iff (by decide)).1 hs
    split at h
    · exact divided_of_listToSunday? h
    · obtain ⟨t', ht', rfl⟩ := Option.map_eq_some_iff.1 h
      exact (Grammar.divided_append_sign_iff (by decide)).2 ⟨divided_of_renumberSpan? hspan ht', hstep⟩

/-- renumbering takes no sign away from between two things -/
theorem divided_of_renumber? {w t : List Char} (hw : Grammar.Divided w) (h : renumber? w = some t) :
    Grammar.Divided t := by
  obtain ⟨items, hitems, rfl⟩ := Option.map_eq_some_iff.1 h
  apply Grammar.Divided.join
  intro item hitem
  obtain ⟨s, hs, hrenumber⟩ := (exists_of_mapM hitems).2 item hitem
  have hpiece : Grammar.Divided s := List.IsChain.infix hw (infix_of_mem_split hs)
  exact divided_of_renumberItem? hpiece hrenumber

end Weekday

open Weekday

/-! ## Refusal -/

/-- a number that stands in the text behind a month is within the limits of one of the fields that month and text are -/
theorem exists_holds_of_setOff {m : Numeral} {us : List Cron.Unit} {month t : List Char} {values : List Nat}
    (hmonth : Grammar.IsField .month month values) (h : SetOff m.digits t)
    (hfields : Grammar.AreFields us (month ++ ' ' :: t)) : ∃ u ∈ us, u.holds m.value = true := by
  obtain ⟨a, b, rfl, ha, hb⟩ := h
  have hsign : ∀ c ∈ [',', '-', '/'], c.isAlphanum = false := by simp
  have hbehind : Grammar.Apart m.digits b := Grammar.apart_of_head fun c hc => hsign c (hb c hc)
  have hfront : Grammar.Apart (month ++ ' ' :: a) m.digits ∧ Grammar.last? (month ++ ' ' :: a) ≠ some '/' := by
    by_cases hnil : a = []
    · -- only the month stands in front, and it does not end with a slash
      subst hnil
      obtain ⟨c, hc, hstarts⟩ := hmonth.last
      refine ⟨Grammar.apart_of_getLast (by simp), ?_⟩
      rw [Grammar.last?_append, Grammar.last?_blanks (by simp [Grammar.Blanks, Grammar.isSpace]), Option.none_or, hc]
      rintro ⟨⟩
      cases hstarts
    · obtain ⟨c, hc⟩ := Option.ne_none_iff_exists'.1 (mt List.getLast?_eq_none_iff.1 hnil)
      have hdivides : ∀ c ∈ [',', '-'], c.isAlphanum = false ∧ Grammar.isSpace c = false ∧ c ≠ '/' := by
        simp [Grammar.isSpace]
      obtain ⟨halnum, hspace, hslash⟩ := hdivides c (ha c hc)
      have hlast : (month ++ ' ' :: a).getLast? = some c := by
        rw [List.append_cons, List.getLast?_append_of_ne_nil _ hnil, hc]
      constructor
      · apply Grammar.apart_of_getLast
        intro c' hc'
        rw [hlast] at hc'
        cases hc'
        exact halnum
      · rw [Grammar.last?_of_getLast? hlast hspace]
        simpa using hslash
  have hstanding : Grammar.Standing none m.digits (month ++ ' ' :: (a ++ (m.digits ++ b))) :=
    ⟨month ++ ' ' :: a, b, by simp, hfront.1, hbehind, by rw [Option.or_none]; exact hfront.2⟩
  exact hfields.exists_holds m.reads hstanding

/-- an expression of five or six tokens, the first of which is a field, is what its tokens make it -/
theorem exists_parse_eq_ofFields {text : String} {others : List (List Char)} {month w : List Char}
    (hwords : words text.toList = others ++ [month, w])
    (hothers : List.Forall₂ (fun u t => ∃ values, Grammar.IsField u t values) [.minute, .hour, .dayOfMonth] others ∨
      List.Forall₂ (fun u t => ∃ values, Grammar.IsField u t values) [.second, .minute, .hour, .dayOfMonth] others) :
    ∃ fields, List.Forall₂ (fun u t => ∃ values, Grammar.IsField u t values)
        [.second, .minute, .hour, .dayOfMonth] fields ∧ parse text = ofFields (fields ++ [month]) w := by
  have htrim : words (trim text.toList) = others ++ [month, w] := by rw [words_trim, hwords]
  rcases hothers with hothers | hothers
  · have hzero : ∃ values, Grammar.IsField .second ['0'] values :=
      ⟨[0], Grammar.field?_eq_some_iff.1 (by decide +kernel)⟩
    refine ⟨['0'] :: others, .cons hzero hothers, ?_⟩
    rcases hothers with _ | ⟨hfirst, _ | ⟨-, _ | ⟨-, _ | _⟩⟩⟩
    rw [parse_eq_ofExpression hwords ⟨_, hfirst⟩]
    simp only [ofExpression, htrim]
    rfl
  · refine ⟨others, hothers, ?_⟩
    rcases hothers with _ | ⟨hfirst, _ | ⟨-, _ | ⟨-, _ | ⟨-, _ | _⟩⟩⟩⟩
    rw [parse_eq_ofExpression hwords ⟨_, hfirst⟩]
    simp only [ofExpression, htrim]
    rfl

/-- month and weekday, renumbered, are three fields one behind the other: the weekday ends in a year -/
def EndsInYear (month w : List Char) : Prop :=
  ∃ t, renumber? w = some t ∧ Grammar.AreFields [.month, .dayOfWeek, .year] (month ++ ' ' :: t)

/-- no month and no weekday is so great -/
theorem eq_year_of_holds {u : Cron.Unit} {n : Nat} (hu : u ∈ [Unit.month, .dayOfWeek, .year]) (hn : 255 < n)
    (h : u.holds n = true) : u = .year := by
  have hle := (Unit.holds_iff.1 h).2
  simp only [List.mem_cons, List.not_mem_nil, or_false] at hu
  rcases hu with rfl | rfl | rfl
  · exact absurd (hle.trans_lt (by decide)) hn.not_gt
  · exact absurd (hle.trans_lt (by decide)) hn.not_gt
  · rfl

section Refusal

variable {month w : List Char} {values : List Nat} {m : Numeral}

/-- what a weekday ends in is a year with the number among its own -/
theorem EndsInYear.holds_year (h : EndsInYear month w) (hmonth : Grammar.IsField .month month values) (hw : Names w m)
    (hm : 7 < m.value) : Unit.holds .year m.value = true := by
  obtain ⟨t, ht, hfields⟩ := h
  obtain ⟨hsetOff, hlarge⟩ := hw.setOff hm ht
  obtain ⟨u, hu, hholds⟩ := exists_holds_of_setOff hmonth hsetOff hfields
  obtain rfl := eq_year_of_holds hu hlarge hholds
  exact hholds

theorem EndsInYear.not_divided (h : EndsInYear month w) (hmonth : Grammar.IsField .month month values) :
    ¬ Grammar.Divided w := by
  intro hdivided
  obtain ⟨t, ht, hfields⟩ := h
  exact hfields.not_divided hmonth (divided_of_renumber? hdivided ht)

/-- a weekday with a number that is no day is accepted just if it ends in a year -/
theorem exists_ofFields_iff {fields : List (List Char)}
    (hfields : List.Forall₂ (fun u t => ∃ values, Grammar.IsField u t values)
      [.second, .minute, .hour, .dayOfMonth] fields)
    (hmonth : Grammar.IsField .month month values) (hw : Names w m) (hm : 7 < m.value) :
    (∃ schedule, ofFields (fields ++ [month]) w = .ok schedule) ↔ EndsInYear month w := by
  cases ht : renumber? w with
  | none => simp [ofFields, EndsInYear, ht]
  | some t =>
    obtain ⟨hsetOff, hlarge⟩ := hw.setOff hm ht
    have hjoin : join [' '] (fields ++ [month] ++ [t]) = join [' '] (fields ++ [month ++ ' ' :: t]) := by
      rcases hfields with _ | ⟨-, _ | ⟨-, _ | ⟨-, _ | ⟨-, _ | _⟩⟩⟩⟩
      simp [join]
    have hstarts : ∀ c, Grammar.first? (month ++ ' ' :: t) = some c → Grammar.starts c = true :=
      fun _ => hmonth.starts_of_first?
    have haccepted : (∃ schedule, ofFields (fields ++ [month]) w = .ok schedule) ↔
        ∃ f, Fields.parse? (join [' '] (fields ++ [month ++ ' ' :: t])) = some f := by
      rw [ofFields, ht, ← hjoin]
      simp only [ofCron]
      cases Fields.parse? (join [' '] (fields ++ [month] ++ [t])) <;> simp
    have hsix : Grammar.AreFields (units.take 6) (join [' '] (fields ++ [month ++ ' ' :: t])) ↔
        Grammar.AreFields [.month, .dayOfWeek] (month ++ ' ' :: t) :=
      Grammar.areFields_join_iff (by decide) (by decide) hfields hstarts
    have hseven : Grammar.AreFields units (join [' '] (fields ++ [month ++ ' ' :: t])) ↔
        Grammar.AreFields [.month, .dayOfWeek, .year] (month ++ ' ' :: t) :=
      Grammar.areFields_join_iff (by decide) (by decide) hfields hstarts
    -- without a year the number would have to be a month or a weekday
    have hnone : ¬ Grammar.AreFields [.month, .dayOfWeek] (month ++ ' ' :: t) := by
      intro h
      obtain ⟨u, hu, hholds⟩ := exists_holds_of_setOff hmonth hsetOff h
      obtain rfl := eq_year_of_holds (List.mem_append_left [.year] hu) hlarge hholds
      revert hu
      decide
    calc (∃ schedule, ofFields (fields ++ [month]) w = .ok schedule)
        ↔ Grammar.AreFields (units.take 6) (join [' '] (fields ++ [month ++ ' ' :: t])) ∨
          Grammar.AreFields units (join [' '] (fields ++ [month ++ ' ' :: t])) := haccepted.trans exists_parse?_iff
      _ ↔ Grammar.AreFields [.month, .dayOfWeek, .year] (month ++ ' ' :: t) := by
        rw [hsix, hseven, or_iff_right hnone]
      _ ↔ EndsInYear month w := by simp [EndsInYear, ht]

end Refusal

/-- **A weekday with a number that is no day is refused just if it does not end in a year**, for every expression of
five or six tokens of which the others are fields. A number up to 255 is always refused, and for the weekday; so is, for
one reason or another, every number that is no year, and every weekday with a sign between any two things. -/
theorem parse_refuses_iff {text : String} {others : List (List Char)} {month w : List Char} {m : Numeral}
    (hwords : words text.toList = others ++ [month, w])
    (hothers : List.Forall₂ (fun u t => ∃ values, Grammar.IsField u t values) [.minute, .hour, .dayOfMonth] others ∨
      List.Forall₂ (fun u t => ∃ values, Grammar.IsField u t values) [.second, .minute, .hour, .dayOfMonth] others)
    (hmonth : ∃ values, Grammar.IsField .month month values) (hw : Names w m) (hm : 7 < m.value) :
    ((∃ e, parse text = .error e) ↔ ¬ EndsInYear month w) ∧
      (m.value ≤ 255 → parse text = .error (.dayOfWeek (String.ofList w))) ∧
      (Unit.holds .year m.value = false → ∃ e, parse text = .error e) ∧
      (Grammar.Divided w → ∃ e, parse text = .error e) := by
  obtain ⟨values, hmonth⟩ := hmonth
  obtain ⟨fields, hfields, hparse⟩ := exists_parse_eq_ofFields hwords hothers
  rw [hparse]
  have hiff : (∃ e, ofFields (fields ++ [month]) w = .error e) ↔ ¬ EndsInYear month w := by
    rw [← exists_ofFields_iff hfields hmonth hw hm]
    cases ofFields (fields ++ [month]) w <;> simp
  refine ⟨hiff, fun hle => ?_, fun hyear => ?_, fun hdivided => ?_⟩
  · have hnone : renumber? w = none := by
      rw [Option.eq_none_iff_forall_ne_some]
      exact fun t ht => absurd (hw.setOff hm ht).2 hle.not_gt
    rw [ofFields, hnone]
  · rw [hiff]
    intro h
    rw [h.holds_year hmonth hw hm] at hyear
    cases hyear
  · rw [hiff]
    exact fun h => h.not_divided hmonth hdivided

/-- a year behind a comma is no weekday and does not end one either; a small number is refused for the weekday -/
theorem parse_refuses_year :
    parse "0 9 * * 1,2027" = .error .cron ∧ ¬ EndsInYear ['*'] ['1', ',', '2', '0', '2', '7'] ∧
    parse "0 9 * * 8/2" = .error (.dayOfWeek "8/2") ∧
    (∃ e, parse "0 9 * * 1,2027" = .error e) ∧ ∃ e, parse "0 9 * * 8/2" = .error e := by
  have hparse : parse "0 9 * * 1,2027" = .error .cron := by decide +kernel
  have hothers : List.Forall₂ (fun u t => ∃ values, Grammar.IsField u t values)
      [.minute, .hour, .dayOfMonth] [['0'], ['9'], ['*']] :=
    .cons ⟨[0], Grammar.field?_eq_some_iff.1 (by decide +kernel)⟩
      (.cons ⟨[9], Grammar.field?_eq_some_iff.1 (by decide +kernel)⟩
        (.cons ⟨Unit.dayOfMonth.all, Grammar.field?_eq_some_iff.1 (by decide +kernel)⟩ .nil))
  have hmonth : ∃ values, Grammar.IsField .month ['*'] values :=
    ⟨Unit.month.all, Grammar.field?_eq_some_iff.1 (by decide +kernel)⟩
  have hyear : Names ['1', ',', '2', '0', '2', '7'] ⟨['2', '0', '2', '7'], 2027, rfl⟩ :=
    ⟨['2', '0', '2', '7'], [], by decide, by decide, by simp, .day⟩
  have height : Names ['8', '/', '2'] ⟨['8'], 8, rfl⟩ := ⟨['8'], ['/', '2'], by decide, by decide, by simp, .day⟩
  have hlarge := @parse_refuses_iff "0 9 * * 1,2027" _ ['*'] _ _ (by decide +kernel) (.inl hothers) hmonth hyear
    (by decide)
  have hsmall := @parse_refuses_iff "0 9 * * 8/2" _ ['*'] _ _ (by decide +kernel) (.inl hothers) hmonth height
    (by decide)
  exact ⟨hparse, hlarge.1.1 ⟨_, hparse⟩, hsmall.2.1 (by decide), hlarge.2.2.2 (by decide), hsmall.2.2.1 (by decide)⟩

/-- behind a star, which is no sign that goes on, the same year ends the weekday, and what stands in front of it is
taken for the day from 1 to 7, so that Monday becomes Sunday -/
theorem parse_accepts_year :
    parse "0 9 * * 1*,2027" = .ok (.cron "0 0 9 * * 1*,2027"
      ⟨[0], [0], [9], Unit.dayOfMonth.all, Unit.month.all, [1], Unit.year.all⟩) ∧
    words "0 9 * * 1*,2027".toList = [['0'], ['9'], ['*']] ++ [['*'], ['1', '*', ',', '2', '0', '2', '7']] ∧
    List.Forall₂ (fun u t => ∃ values, Grammar.IsField u t values)
      [.minute, .hour, .dayOfMonth, .month] [['0'], ['9'], ['*'], ['*']] ∧
    Names ['1', '*', ',', '2', '0', '2', '7'] ⟨['2', '0', '2', '7'], 2027, rfl⟩ := by
  refine ⟨by decide +kernel, by decide +kernel, ?_, ⟨['2', '0', '2', '7'], [], by decide, by decide, by simp, .day⟩⟩
  exact .cons ⟨[0], Grammar.field?_eq_some_iff.1 (by decide +kernel)⟩
    (.cons ⟨[9], Grammar.field?_eq_some_iff.1 (by decide +kernel)⟩
      (.cons ⟨Unit.dayOfMonth.all, Grammar.field?_eq_some_iff.1 (by decide +kernel)⟩
        (.cons ⟨Unit.month.all, Grammar.field?_eq_some_iff.1 (by decide +kernel)⟩ .nil)))

end SheetPost.Schedule
