/-
Dates of mail messages as they are written: letters and digits with a few signs between them, and for a year of four
digits no more than 31 characters.
-/
import Mathlib.Algebra.Ring.Nat
import SheetPost.Calendar.Rfc2822
import SheetPost.Proofs.Calendar.Moment
import SheetPost.Proofs.Text.Letter

namespace SheetPost.Calendar.Rfc2822

open SheetPost.Text

/-! ## Characters -/

/-- a character that dates are written with -/
def isDateChar (c : Char) : Bool := c.isAlphanum || [' ', ',', ':', '+', '-'].contains c

/-- dates are ASCII -/
theorem lt_of_isDateChar {c : Char} (h : isDateChar c = true) : c.toNat < 0x80 := by
  rw [isDateChar, Bool.or_eq_true, List.contains_iff_mem] at h
  rcases h with h | h
  · rw [isAlphanum_iff, isAlpha_iff, isUpper_iff, isLower_iff, isDigit_iff] at h
    omega
  · have hsigns : [' ', ',', ':', '+', '-'].all (fun d => d.toNat < 0x80) = true := by decide
    simpa using List.all_eq_true.1 hsigns c h

theorem all_decimal (n : Nat) : (decimal n).all isDateChar = true := by
  rw [List.all_eq_true]
  intro c hc
  have hdigit : c.isDigit = true := Nat.isDigit_of_mem_toDigits (by decide) (by decide) hc
  rw [isDateChar, isAlphanum_iff.2 (.inr hdigit)]
  rfl

theorem all_decimalPadded (width n : Nat) : (decimalPadded width n).all isDateChar = true := by
  have hzeros : (List.replicate (width - (decimal n).length) '0').all isDateChar = true := by
    rw [List.all_eq_true]
    intro c hc
    rw [(List.mem_replicate.1 hc).2]
    decide
  rw [decimalPadded, List.all_append, hzeros, all_decimal]
  rfl

/-- what holds of every name, and of none -/
theorem nameAt_spec {P : List Char → Prop} {names : List String} (h : ∀ s ∈ names, P s.toList) (hnil : P [])
    (n : Nat) : P (nameAt names n) := by
  unfold nameAt
  cases hn : names[n - 1]? with
  | none => exact hnil
  | some s => exact h s (List.mem_of_getElem? hn)

theorem all_write (m : Moment) : (write m).all isDateChar = true := by
  have hday : (nameAt dayNames m.date.weekday).all isDateChar = true :=
    nameAt_spec (P := fun s => s.all isDateChar = true) (by decide) rfl _
  have hmonth : (nameAt monthNames m.date.month).all isDateChar = true :=
    nameAt_spec (P := fun s => s.all isDateChar = true) (by decide) rfl _
  have hsigns : isDateChar ' ' = true ∧ isDateChar ',' = true ∧ isDateChar ':' = true := by decide
  have hoffset : (writeOffset m.offset).all isDateChar = true := by
    rw [writeOffset, List.all_cons, List.all_append, all_decimalPadded, all_decimalPadded]
    split <;> decide
  simp only [write, List.intercalate_cons_cons, List.intercalate_singleton, List.all_append, List.all_cons,
    List.all_nil, hday, hmonth, hsigns, hoffset, all_decimal, all_decimalPadded, Bool.and_self]

/-! ## Lengths -/

theorem length_decimal_le {n k : Nat} (h : n < 10 ^ k) (hk : 0 < k) : (decimal n).length ≤ k :=
  (Nat.length_toDigits_le_iff (by decide) hk).2 h

theorem length_decimalPadded_le {width n : Nat} (h : n < 10 ^ width) (hwidth : 0 < width) :
    (decimalPadded width n).length ≤ width := by
  have := length_decimal_le h hwidth
  rw [decimalPadded, List.length_append, List.length_replicate]
  omega

/-- a moment that the date of a message can show: a year of four digits, on a clock less than a day from UTC -/
structure IsWritable (m : Moment) : Prop where
  valid : m.IsValid
  year : m.date.year ≤ 9999
  offset : m.offset.natAbs < 86400

theorem length_writeOffset_le {offset : Int} (h : offset.natAbs < 86400) : (writeOffset offset).length ≤ 5 := by
  have hhours : (decimalPadded 2 (offset.natAbs / 60 / 60)).length ≤ 2 := length_decimalPadded_le (by omega) (by decide)
  have hminutes : (decimalPadded 2 (offset.natAbs / 60 % 60)).length ≤ 2 := length_decimalPadded_le (by omega) (by decide)
  rw [writeOffset, List.length_cons, List.length_append]
  omega

theorem length_write_le {m : Moment} (h : IsWritable m) : (write m).length ≤ 31 := by
  obtain ⟨⟨hdate, hhour, hminute, hsecond⟩, hyear, hoffset⟩ := h
  obtain ⟨-, -, -, hlast⟩ := (Date.isValid_iff _).1 hdate
  have hlong : daysInMonth m.date.year m.date.month ≤ 31 := by
    unfold daysInMonth
    split
    · split <;> decide
    all_goals decide
  have hweekday : (nameAt dayNames m.date.weekday).length ≤ 3 :=
    nameAt_spec (P := fun s => s.length ≤ 3) (by decide) (by decide) _
  have hmonth : (nameAt monthNames m.date.month).length ≤ 3 :=
    nameAt_spec (P := fun s => s.length ≤ 3) (by decide) (by decide) _
  have hday : (decimal m.date.day).length ≤ 2 := length_decimal_le (by omega) (by decide)
  have hyear : (decimalPadded 4 m.date.year.toNat).length ≤ 4 := length_decimalPadded_le (by omega) (by decide)
  have hhour : (decimalPadded 2 m.time.hour).length ≤ 2 := length_decimalPadded_le (by omega) (by decide)
  have hminute : (decimalPadded 2 m.time.minute).length ≤ 2 := length_decimalPadded_le (by omega) (by decide)
  have hsecond : (decimalPadded 2 m.time.second).length ≤ 2 := length_decimalPadded_le (by omega) (by decide)
  have hoffset := length_writeOffset_le hoffset
  simp only [write, List.intercalate_cons_cons, List.intercalate_singleton, List.length_append, List.length_cons,
    List.length_nil]
  omega

end SheetPost.Calendar.Rfc2822
