/-
Day-of-week fields with Sunday as 0 or 7. The field is renumbered item by item and read again by a grammar with lists,
ranges and steps of its own; the days that come out are those that the items stand for.

Main statement: `daysOfWeek_of_parse`.
-/
import SheetPost.Proofs.Schedule.DayItem
import SheetPost.Proofs.Schedule.Tokens

namespace SheetPost.Schedule

open SheetPost.Text SheetPost.Cron

namespace Weekday

/-- a day-of-week field: its items with commas between them -/
def fieldText (items : List DayItem) : List Char := join [','] (items.map DayItem.text)

theorem DayItem.not_mem_comma (i : DayItem) : ',' ∉ i.text := by
  cases i with
  | name n => exact n.not_mem rfl
  | days d step =>
    have hd : ',' ∉ d.text := d.not_mem rfl (by decide) (by decide)
    cases step with
    | none => exact hd
    | some s =>
      simp only [DayItem.text, stepText, List.mem_append, List.mem_cons, not_or]
      exact ⟨hd, by decide, s.not_mem rfl⟩

/-- a field is renumbered item by item, and stands for what its items stand for -/
theorem exists_renumber?_fieldText {items : List DayItem} (hne : items ≠ []) :
    ∃ t, renumber? (fieldText items) = some t ∧
      Grammar.Stands .dayOfWeek t fun d => ∃ i ∈ items, i.Shifted d := by
  choose text hrenumber hstands using DayItem.exists_renumberItem?
  refine ⟨join [','] (items.map text), ?_, .join hne fun i _ => hstands i⟩
  have hcomma : ∀ t ∈ items.map DayItem.text, ',' ∉ t := by
    intro t ht
    obtain ⟨i, -, rfl⟩ := List.mem_map.1 ht
    exact i.not_mem_comma
  have hmap : (items.map DayItem.text).mapM renumberItem? = some (items.map text) := by
    clear hne hcomma
    induction items with
    | nil => rfl
    | cons i items ih => simp [hrenumber, ih]
  rw [renumber?, fieldText, split_join (by simpa using hne) hcomma, hmap, Option.map_some]

end Weekday

open Weekday

/-- the days of six tokens, the last of which has been renumbered -/
theorem daysOfWeek_of_tokens {text : String} {sec m hr d mo t : List Char} {P : Nat → Prop}
    (htokens : normalized? (words text.toList) = some [sec, m, hr, d, mo, t])
    (hlength : (words text.toList).length ≠ 7)
    (hothers : List.Forall₂ (fun u t => ∃ values, Grammar.IsField u t values)
      [.second, .minute, .hour, .dayOfMonth, .month] [sec, m, hr, d, mo])
    (hstands : Grammar.Stands .dayOfWeek t P) :
    ∃ source fields, parse text = .ok (.cron source fields) ∧
      ∀ d, d ∈ fields.daysOfWeek ↔ Unit.holds .dayOfWeek d = true ∧ P d := by
  obtain ⟨days, hdays, hiff⟩ := hstands.exists_isField
  have heach : EachIsField [sec, m, hr, d, mo, t] := List.rel_append hothers (.cons ⟨days, hdays⟩ .nil)
  obtain ⟨source, fields, hparse, htoken⟩ := exists_parse_of_tokens htokens hlength heach
  refine ⟨source, fields, hparse, ?_⟩
  have hlast : Grammar.IsField .dayOfWeek t fields.daysOfWeek := by
    match htoken.each with
    | .cons _ (.cons _ (.cons _ (.cons _ (.cons _ (.cons hlast .nil))))) => exact hlast
  rw [← Grammar.field?_eq_some_iff] at hdays hlast
  rw [hdays] at hlast
  cases hlast
  exact hiff

/-- **The days of a schedule are those that the items of its last field stand for**, for every expression of five or six
tokens of which the others are fields: it is accepted, and Sunday is 1 in its days. -/
theorem daysOfWeek_of_parse {text : String} {others : List (List Char)} {items : List DayItem}
    (hwords : words text.toList = others ++ [fieldText items]) (hne : items ≠ [])
    (hothers : List.Forall₂ (fun u t => ∃ values, Grammar.IsField u t values)
        [.minute, .hour, .dayOfMonth, .month] others ∨
      List.Forall₂ (fun u t => ∃ values, Grammar.IsField u t values)
        [.second, .minute, .hour, .dayOfMonth, .month] others) :
    ∃ source fields, parse text = .ok (.cron source fields) ∧
      ∀ d, d ∈ fields.daysOfWeek ↔ ∃ i ∈ items, ∃ w, i.Selects w ∧ d = w + 1 := by
  obtain ⟨t, hrenumber, hstands⟩ := exists_renumber?_fieldText hne
  have hholds (d : Nat) (h : ∃ i ∈ items, i.Shifted d) : Unit.holds .dayOfWeek d = true := by
    obtain ⟨i, -, hi⟩ := h
    exact DayItem.holds_of_shifted hi
  have hzero : ∃ values, Grammar.IsField .second ['0'] values :=
    ⟨[0], Grammar.field?_eq_some_iff.1 (by decide +kernel)⟩
  rcases hothers with hothers | hothers
  · obtain ⟨m, hr, d, mo, rfl⟩ : ∃ m hr d mo, others = [m, hr, d, mo] := by
      rcases hothers with _ | ⟨-, _ | ⟨-, _ | ⟨-, _ | ⟨-, _ | _⟩⟩⟩⟩
      exact ⟨_, _, _, _, rfl⟩
    obtain ⟨source, fields, hparse, hdays⟩ := daysOfWeek_of_tokens
      (by rw [hwords]; simp only [List.cons_append, List.nil_append, normalized?, hrenumber, Option.map_some])
      (by rw [hwords]; simp) (.cons hzero hothers) hstands
    exact ⟨source, fields, hparse, fun d => (hdays d).trans (and_iff_right_of_imp (hholds d))⟩
  · obtain ⟨sec, m, hr, d, mo, rfl⟩ : ∃ sec m hr d mo, others = [sec, m, hr, d, mo] := by
      rcases hothers with _ | ⟨-, _ | ⟨-, _ | ⟨-, _ | ⟨-, _ | ⟨-, _ | _⟩⟩⟩⟩⟩
      exact ⟨_, _, _, _, _, rfl⟩
    obtain ⟨source, fields, hparse, hdays⟩ := daysOfWeek_of_tokens
      (by rw [hwords]; simp only [List.cons_append, List.nil_append, normalized?, hrenumber, Option.map_some])
      (by rw [hwords]; simp) hothers hstands
    exact ⟨source, fields, hparse, fun d => (hdays d).trans (and_iff_right_of_imp (hholds d))⟩

/-- Friday, Sunday as 7 and Monday by its name -/
theorem daysOfWeek_of_parse_range :
    parse "30 18 * * 5-7/2,MON" = .ok (.cron "0 30 18 * * 1,6,MON"
      ⟨[0], [30], [18], Unit.dayOfMonth.all, Unit.month.all, [1, 2, 6], Unit.year.all⟩) ∧
    ∀ d, d ∈ [1, 2, 6] ↔ ∃ i ∈ [DayItem.days
        (.range ⟨⟨['5'], 5, rfl⟩, by decide⟩ ⟨⟨['7'], 7, rfl⟩, by decide⟩ (by decide))
        (some ⟨⟨['2'], 2, rfl⟩, by decide, by decide⟩), .name ⟨['M', 'O', 'N'], 1, by decide⟩],
      ∃ w, i.Selects w ∧ d = w + 1 := by
  have hparse : parse "30 18 * * 5-7/2,MON" = .ok (.cron "0 30 18 * * 1,6,MON"
      ⟨[0], [30], [18], Unit.dayOfMonth.all, Unit.month.all, [1, 2, 6], Unit.year.all⟩) := by decide +kernel
  have hothers : List.Forall₂ (fun u t => ∃ values, Grammar.IsField u t values)
      [.minute, .hour, .dayOfMonth, .month] [['3', '0'], ['1', '8'], ['*'], ['*']] :=
    .cons ⟨[30], Grammar.field?_eq_some_iff.1 (by decide +kernel)⟩
      (.cons ⟨[18], Grammar.field?_eq_some_iff.1 (by decide +kernel)⟩
        (.cons ⟨Unit.dayOfMonth.all, Grammar.field?_eq_some_iff.1 (by decide +kernel)⟩
          (.cons ⟨Unit.month.all, Grammar.field?_eq_some_iff.1 (by decide +kernel)⟩ .nil)))
  obtain ⟨source, fields, h, hdays⟩ := @daysOfWeek_of_parse "30 18 * * 5-7/2,MON" _
    [.days (.range ⟨⟨['5'], 5, rfl⟩, by decide⟩ ⟨⟨['7'], 7, rfl⟩, by decide⟩ (by decide))
      (some ⟨⟨['2'], 2, rfl⟩, by decide, by decide⟩), .name ⟨['M', 'O', 'N'], 1, by decide⟩]
    (by decide +kernel) (List.cons_ne_nil _ _) (.inl hothers)
  rw [hparse, Except.ok.injEq, cron.injEq] at h
  obtain ⟨-, rfl⟩ := h
  exact ⟨hparse, hdays⟩

end SheetPost.Schedule
