/-
Names of cells read back: letters count in a numeral system without a zero.

Main statement: `readCell?_cell`.
-/
import Mathlib.Data.List.TakeWhile
import SheetPost.Proofs.Sheet.Token
import SheetPost.Proofs.Text.Numeral
import SheetPost.Sheet.CellName

namespace SheetPost.Sheet.CellName

open SheetPost.Text

/-- the letter with a place below 26 -/
theorem toNat_letter {n : Nat} (h : n < 26) : (Char.ofNat (0x41 + n)).toNat = 0x41 + n := by
  have : ∀ m : Fin 26, (Char.ofNat (0x41 + m.val)).toNat = 0x41 + m.val := by decide
  exact this ⟨n, h⟩

theorem readColumnFrom?_letter (acc : Nat) {n : Nat} (h : n < 26) (s : List Char) :
    readColumnFrom? acc (Char.ofNat (0x41 + n) :: s) = readColumnFrom? (acc * 26 + (n + 1)) s := by
  rw [readColumnFrom?, toNat_letter h, if_pos (by omega)]
  congr 1
  omega

/-- the letters of a column count one more than the column -/
theorem readColumnFrom?_column (n : Nat) (s : List Char) :
    readColumnFrom? 0 (column n ++ s) = readColumnFrom? (n + 1) s := by
  induction n using Nat.strongRecOn generalizing s with
  | _ n ih =>
    have hmod : n % 26 < 26 := Nat.mod_lt n (by decide)
    rw [column]
    split
    · next hlt =>
      rw [List.singleton_append, readColumnFrom?_letter 0 hmod, Nat.mod_eq_of_lt hlt, Nat.zero_mul, Nat.zero_add]
    · next hge =>
      rw [List.append_assoc, ih (n / 26 - 1) (by omega), List.singleton_append, readColumnFrom?_letter _ hmod]
      congr 1
      omega

theorem mem_column {n : Nat} {c : Char} (hc : c ∈ column n) : ∃ m, m < 26 ∧ c = Char.ofNat (0x41 + m) := by
  induction n using Nat.strongRecOn with
  | _ n ih =>
    have hmod : n % 26 < 26 := Nat.mod_lt n (by decide)
    rw [column] at hc
    split at hc
    · exact ⟨n % 26, hmod, List.mem_singleton.1 hc⟩
    · next hge =>
      rcases List.mem_append.1 hc with hc | hc
      · exact ih (n / 26 - 1) (by omega) hc
      · exact ⟨n % 26, hmod, List.mem_singleton.1 hc⟩

theorem isAlpha_letter {m : Nat} (hm : m < 26) : (Char.ofNat (0x41 + m)).isAlpha = true := by
  have : ∀ m : Fin 26, (Char.ofNat (0x41 + m.val)).isAlpha = true := by decide
  exact this ⟨m, hm⟩

/-- **The name of a cell is read back as its row and its column** -/
theorem readCell?_cell (r c : Nat) : readCell? (cell r c) = some (r, c) := by
  have hletters : (cell r c).takeWhile Char.isAlpha = column c := by
    have hall : ∀ x ∈ column c, x.isAlpha = true := by
      intro x hx
      obtain ⟨m, hm, rfl⟩ := mem_column hx
      exact isAlpha_letter hm
    have hrow : (row r).takeWhile Char.isAlpha = [] := by
      obtain ⟨hne, hdigits⟩ := isDigit_of_readDigits? (readDigits?_decimal (r + 1))
      obtain ⟨d, t, hd⟩ := List.exists_cons_of_ne_nil hne
      have hdigit : d.isDigit = true := hdigits d (by rw [hd]; exact List.mem_cons_self)
      have halpha : d.isAlpha = false := by
        rw [← Bool.not_eq_true]
        intro halpha
        rw [not_isDigit_of_isAlpha halpha] at hdigit
        cases hdigit
      rw [row, hd, List.takeWhile_cons_of_neg (by rw [halpha]; exact Bool.false_ne_true)]
    rw [cell, List.takeWhile_append_of_pos hall, hrow, List.append_nil]
  rw [readCell?, hletters, cell, List.drop_left, row, readDigits?_decimal]
  have hcolumn := readColumnFrom?_column c []
  rw [List.append_nil, readColumnFrom?, if_neg (Nat.succ_ne_zero c), Nat.add_sub_cancel] at hcolumn
  simp only [hcolumn, Nat.add_eq_zero_iff, Nat.one_ne_zero, and_false, if_false, Nat.add_sub_cancel]

end SheetPost.Sheet.CellName
