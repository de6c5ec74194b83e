/-
How a text is taken for a schedule: by what it begins with it is an interval, a shortcut or an expression, and an
expression becomes cron unless its weekday or its count of fields is refused. What is said of every schedule that is read,
or of every refusal, is said of each of these ways.

Main statements: the ways of a text (`parsed`) and of an expression (`expressed`).
-/
import SheetPost.Schedule.Basic
import SheetPost.Text.Search

namespace SheetPost.Schedule

open SheetPost.Text

/-- a text is `@every` and an interval's text, with blanks around either -/
def SaysEvery (text : String) (s : List Char) : Prop :=
  ∃ r, trim text.toList = "@every".toList ++ r ∧ trim r = s

/-- what can become of an expression -/
inductive Expressed : Except ScheduleError Schedule → Prop where
  | cron (source : List Char) : Expressed (ofCron source)
  | dayOfWeek (field : String) : Expressed (.error (.dayOfWeek field))
  | fieldCount (n : Nat) : Expressed (.error (.fieldCount n))

theorem expressed_ofFields (others : List (List Char)) (dayOfWeek : List Char) :
    Expressed (ofFields others dayOfWeek) := by
  unfold ofFields
  split
  · exact .cron _
  · exact .dayOfWeek _

theorem expressed (s : List Char) : Expressed (ofExpression s) := by
  unfold ofExpression
  split
  · exact expressed_ofFields _ _
  · exact expressed_ofFields _ _
  · exact .cron s
  · exact .fieldCount _

/-- what can become of a text, and what it says then -/
inductive Parsed (text : String) : Except ScheduleError Schedule → Prop where
  | empty : trim text.toList = [] → Parsed text (.error .empty)
  | every {s : List Char} : SaysEvery text s → Parsed text (ofEvery s)
  | shortcut {expression : String} : shortcut? (String.ofList (trim text.toList)) = some expression →
    Parsed text (ofCron expression.toList)
  | unknown : Parsed text (.error (.unknownShortcut (String.ofList (trim text.toList))))
  | expression : Parsed text (ofExpression (trim text.toList))

theorem parsed (text : String) : Parsed text (parse text) := by
  unfold parse
  simp only
  split
  · next h => exact .empty h
  · split
    · next r hr => exact .every ⟨r, after?_eq_some hr, rfl⟩
    · split
      · next expression he => exact .shortcut he
      · exact .unknown
  · exact .expression

theorem parse_of_saysEvery {text : String} {s : List Char} (h : SaysEvery text s) : parse text = ofEvery s := by
  obtain ⟨r, hr, rfl⟩ := h
  have hafter : after? "@every".toList ('@' :: ("every".toList ++ r)) = some r := after?_append "@every".toList r
  unfold parse
  rw [hr]
  simp only [show "@every".toList ++ r = '@' :: ("every".toList ++ r) from rfl, hafter]

end SheetPost.Schedule
