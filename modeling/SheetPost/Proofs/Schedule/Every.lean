/-
Schedules that are intervals: `@every` and an interval's text behind it. Such a text is read as the sum of its items.
Where the product of a number and its unit can not be counted, or the sum can not, reading stops with an overflow instead
of an answer.

Main statements: intervals are read exactly where everything can be counted (`parse_every`), and what becomes of every
text (`interval_of_parse`).
-/
import SheetPost.Proofs.Schedule.Interval
import SheetPost.Proofs.Schedule.Parse
import SheetPost.Proofs.Text.Trim

namespace SheetPost.Schedule

open SheetPost.Text SheetPost.Schedule.Interval

/-! ## Texts that say `@every` -/

theorem saysEvery_append (s : String) : SaysEvery ("@every" ++ s) (trim s.toList) := by
  refine ⟨dropEndWhile isBlank s.toList, ?_, trimWhile_dropEndWhile isBlank s.toList⟩
  have hfront : ∀ c ∈ "@ever".toList, isBlank c = false := not_isBlank_of_all (by decide)
  rw [String.toList_append]
  exact trimWhile_append_cons hfront (c := 'y') (by decide) s.toList

/-- a schedule that is an interval, or one that can not be counted -/
def IsCounted : Except ScheduleError Schedule → Prop
  | .ok (.every _) => True
  | .error (.overflow _) => True
  | _ => False

theorem not_isCounted_ofCron (source : List Char) : ¬ IsCounted (ofCron source) := by
  unfold ofCron
  split <;> exact id

/-- only a text that says `@every` is counted -/
theorem exists_saysEvery {text : String} (h : IsCounted (parse text)) : ∃ s, SaysEvery text s := by
  have hparsed := parsed text
  generalize parse text = r at h hparsed
  cases hparsed with
  | empty => cases h
  | every hs => exact ⟨_, hs⟩
  | shortcut => exact absurd h (not_isCounted_ofCron _)
  | unknown => cases h
  | expression =>
    have hexpressed := expressed (trim text.toList)
    generalize ofExpression (trim text.toList) = r at h hexpressed
    cases hexpressed with
    | cron source => exact absurd h (not_isCounted_ofCron source)
    | dayOfWeek => cases h
    | fieldCount => cases h

/-! ## What they are read as -/

theorem ofEvery_eq_ok_iff {s : List Char} {d : Interval} : ofEvery s = .ok (.every d) ↔ read s = .interval d := by
  unfold ofEvery
  cases read s <;> simp

theorem ofEvery_eq_overflow_iff {s : List Char} {cause : Overflow} :
    ofEvery s = .error (.overflow cause) ↔ read s = .overflow cause := by
  unfold ofEvery
  cases read s <;> simp

theorem ofEvery_eq_invalid_iff {s : List Char} :
    ofEvery s = .error (.invalidEvery (String.ofList s)) ↔ read s = .invalid := by
  unfold ofEvery
  cases read s <;> simp

/-- what stands at the front of a text can be counted, each number and all together -/
def Fits (s : List Char) : Prop := ∀ items rest, Begins items s rest → NumbersFit items ∧ nanosOf items < limit

theorem fits_textOf {items : List Item} (hfit : NumbersFit items) (hsum : nanosOf items < limit) :
    Fits (textOf items) := by
  intro xs rest hbegins
  obtain ⟨ys, rfl⟩ := isPrefix_of_begins hbegins
  rw [nanosOf_append] at hsum
  exact ⟨fun i hi => hfit i (List.mem_append_left ys hi), by omega⟩

/-- **where everything can be counted, an interval is read just if the text is items and their sum is not zero, and the
    interval is exactly the sum; every other text is refused as no interval** -/
theorem parse_every {s : String} (h : Fits (trim s.toList)) :
    (∀ d, parse ("@every" ++ s) = .ok (.every d) ↔ ∃ items, items ≠ [] ∧ trim s.toList = textOf items ∧
      nanosOf items ≠ 0 ∧ d = ofNanos (nanosOf items)) ∧
    ((¬ ∃ items, items ≠ [] ∧ trim s.toList = textOf items ∧ nanosOf items ≠ 0) →
      parse ("@every" ++ s) = .error (.invalidEvery (String.ofList (trim s.toList)))) := by
  rw [parse_of_saysEvery (saysEvery_append s)]
  have hok (d : Interval) : ofEvery (trim s.toList) = .ok (.every d) ↔ ∃ items, items ≠ [] ∧
      trim s.toList = textOf items ∧ nanosOf items ≠ 0 ∧ d = ofNanos (nanosOf items) := by
    rw [ofEvery_eq_ok_iff, read_eq_interval_iff]
    constructor
    · rintro ⟨items, hs, -, hpos, -, hd⟩
      refine ⟨items, ?_, hs, hpos, hd⟩
      rintro rfl
      exact hpos rfl
    · rintro ⟨items, -, hs, hpos, hd⟩
      obtain ⟨hfit, hsum⟩ := h items [] (hs ▸ begins_textOf items)
      exact ⟨items, hs, hfit, hpos, hsum, hd⟩
  refine ⟨hok, fun hnone => ?_⟩
  rw [ofEvery_eq_invalid_iff]
  cases hread : read (trim s.toList) with
  | interval d =>
    obtain ⟨items, hne, hs, hpos, -⟩ := (hok d).1 (ofEvery_eq_ok_iff.2 hread)
    exact absurd ⟨items, hne, hs, hpos⟩ hnone
  | invalid => rfl
  | overflow cause =>
    obtain ⟨items, last, htoo, -⟩ := read_eq_overflow_iff.1 hread
    obtain ⟨rest, hbegins⟩ := htoo.begins
    obtain ⟨-, hsum⟩ := h _ rest hbegins
    rw [nanosOf_concat] at hsum
    exact absurd htoo.reached (Nat.not_le.2 hsum)

/-- an hour and a half and half a second, with blanks around -/
theorem parse_every_ninety_minutes : Fits (trim " 1h30m500ms\n".toList) ∧
    parse ("@every" ++ " 1h30m500ms\n") = .ok (.every ⟨5400, 500000000⟩) := by
  let items : List Item := [⟨['1'], .hour, by simp, List.all_eq_true.1 rfl⟩,
    ⟨['3', '0'], .minute, by simp, List.all_eq_true.1 rfl⟩,
    ⟨['5', '0', '0'], .millisecond, by simp, List.all_eq_true.1 rfl⟩]
  have htext : trim " 1h30m500ms\n".toList = textOf items := by decide
  have hfits : Fits (trim " 1h30m500ms\n".toList) := by
    rw [htext]
    refine fits_textOf ?_ (by decide)
    simp only [NumbersFit, items]
    decide
  exact ⟨hfits, ((parse_every hfits).1 _).2 ⟨items, by simp [items], htext, by decide, by decide⟩⟩

/-! ## What can not be counted -/

/-- what is counted comes from the text behind `@every` -/
theorem parse_eq_iff {text : String} {r : Except ScheduleError Schedule} (hr : IsCounted r) :
    parse text = r ↔ ∃ s, SaysEvery text s ∧ ofEvery s = r := by
  constructor
  · rintro rfl
    obtain ⟨s, hs⟩ := exists_saysEvery hr
    exact ⟨s, hs, (parse_of_saysEvery hs).symm⟩
  · rintro ⟨s, hs, rfl⟩
    exact parse_of_saysEvery hs

/-- the text of items is read as their sum, or not at all -/
theorem read_textOf {items : List Item} {d : Interval} (h : read (textOf items) = .interval d) :
    NumbersFit items ∧ nanosOf items ≠ 0 ∧ d = ofNanos (nanosOf items) := by
  obtain ⟨more, hs, hfit, hpos, -, hd⟩ := read_eq_interval_iff.1 h
  obtain rfl := textOf_injective hs
  exact ⟨hfit, hpos, hd⟩

/-- items whose numbers fit and whose sum reaches the limit are too much at one of them -/
theorem exists_tooMuch {items : List Item} (hfit : NumbersFit items) (hle : limit ≤ nanosOf items) :
    ∃ front last, TooMuch (textOf items) front last := by
  -- the shortest front that reaches the limit ends with the item that is too much
  suffices hshort : ∃ front last behind, items = front ++ [last] ++ behind ∧ nanosOf front < limit ∧
      limit ≤ nanosOf front + last.nanos by
    obtain ⟨front, last, behind, rfl, hbelow, hreached⟩ := hshort
    refine ⟨front, last, ⟨textOf behind, begins_append (front ++ [last]) behind⟩, ?_, hbelow, hreached⟩
    exact fun i hi => hfit i (List.mem_append_left behind hi)
  induction items using List.reverseRecOn with
  | nil => exact absurd hle (by decide)
  | append_singleton items i ih =>
    by_cases hrest : limit ≤ nanosOf items
    · obtain ⟨front, last, behind, rfl, hbelow, hreached⟩ := ih (fun j hj => hfit j (List.mem_append_left _ hj)) hrest
      exact ⟨front, last, behind ++ [i], List.append_assoc _ _ _, hbelow, hreached⟩
    · rw [nanosOf_concat] at hle
      exact ⟨items, i, [], (List.append_nil _).symm, Nat.not_le.1 hrest, hle⟩

/-- the text of items is refused where a number does not fit or the sum is zero, unless there is an overflow before -/
theorem read_textOf_eq_invalid_iff {items : List Item} :
    read (textOf items) = .invalid ↔
      (∀ cause, read (textOf items) ≠ .overflow cause) ∧ (¬ NumbersFit items ∨ nanosOf items = 0) := by
  constructor
  · intro h
    refine ⟨by simp [h], ?_⟩
    by_contra hcan
    obtain ⟨hfit, hpos⟩ : NumbersFit items ∧ nanosOf items ≠ 0 := by simpa using hcan
    by_cases hlt : nanosOf items < limit
    · rw [read_eq_interval_iff.2 ⟨items, rfl, hfit, hpos, hlt, rfl⟩] at h
      cases h
    · obtain ⟨front, last, htoo⟩ := exists_tooMuch hfit (Nat.not_lt.1 hlt)
      rw [read_eq_overflow_iff.2 ⟨front, last, htoo, rfl⟩] at h
      cases h
  · rintro ⟨hcounted, hnot⟩
    cases hread : read (textOf items) with
    | interval d =>
      obtain ⟨hfit, hpos, -⟩ := read_textOf hread
      exact (hnot.elim (fun h => h hfit) hpos).elim
    | invalid => rfl
    | overflow cause => exact absurd hread (hcounted cause)

/-- **what becomes of every text: there is an overflow just if the items at its front become too much, all their numbers
    fitting, and the last of them says whether its product or the sum; an interval is exactly the sum of its items, and
    there is one just if their numbers fit and the sum can be counted and is not zero; items are refused just if a number
    does not fit or the sum is zero, and there is no overflow** -/
theorem interval_of_parse (text : String) :
    (∀ cause, parse text = .error (.overflow cause) ↔
      ∃ s items last, SaysEvery text s ∧ TooMuch s items last ∧ last.cause = cause) ∧
    (∀ d, parse text = .ok (.every d) ↔ ∃ items, SaysEvery text (textOf items) ∧ NumbersFit items ∧
      nanosOf items ≠ 0 ∧ nanosOf items < limit ∧ d = ofNanos (nanosOf items)) ∧
    (∀ d items, SaysEvery text (textOf items) → parse text = .ok (.every d) → d.totalNanos = nanosOf items) ∧
    ∀ items, SaysEvery text (textOf items) →
      (parse text = .error (.invalidEvery (String.ofList (textOf items))) ↔
        (∀ cause, parse text ≠ .error (.overflow cause)) ∧ (¬ NumbersFit items ∨ nanosOf items = 0)) := by
  refine ⟨fun cause => ?_, fun d => ?_, fun d items hs h => ?_, fun items hs => ?_⟩
  · rw [parse_eq_iff (r := .error (.overflow cause)) trivial]
    simp only [ofEvery_eq_overflow_iff, read_eq_overflow_iff, exists_and_left]
  · rw [parse_eq_iff (r := .ok (.every d)) trivial]
    simp only [ofEvery_eq_ok_iff]
    constructor
    · rintro ⟨s, hs, hread⟩
      obtain ⟨items, rfl, hitems⟩ := read_eq_interval_iff.1 hread
      exact ⟨items, hs, hitems⟩
    · rintro ⟨items, hs, hitems⟩
      exact ⟨textOf items, hs, read_eq_interval_iff.2 ⟨items, rfl, hitems⟩⟩
  · rw [parse_of_saysEvery hs, ofEvery_eq_ok_iff] at h
    obtain ⟨-, -, rfl⟩ := read_textOf h
    exact totalNanos_ofNanos _
  · simp only [parse_of_saysEvery hs, Ne, ofEvery_eq_overflow_iff, ofEvery_eq_invalid_iff]
    exact read_textOf_eq_invalid_iff

/-- a sum of seconds that can not be counted, and a product that can not -/
theorem parse_every_overflow : parse "@every 18446744073709551615s1s" = .error (.overflow .sum) ∧
    parse "@every 18446744073709551615m" = .error (.overflow .product) := by
  decide +kernel

end SheetPost.Schedule
