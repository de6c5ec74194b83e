/-
Letters and digits of ASCII by their code points.

Main statements: `isUpper_iff`, `isLower_iff` and `isDigit_iff`.
-/

namespace SheetPost.Text

theorem isDigit_iff {c : Char} : c.isDigit = true ↔ 0x30 ≤ c.toNat ∧ c.toNat ≤ 0x39 := Char.isDigit_iff_toNat

theorem isUpper_iff {c : Char} : c.isUpper = true ↔ 0x41 ≤ c.toNat ∧ c.toNat ≤ 0x5A := by
  have h : c.isUpper = decide (c.val ≥ 'A'.val ∧ c.val ≤ 'Z'.val) := by rfl
  rw [h, decide_eq_true_iff]
  exact Iff.rfl

theorem isLower_iff {c : Char} : c.isLower = true ↔ 0x61 ≤ c.toNat ∧ c.toNat ≤ 0x7A := by
  have h : c.isLower = (decide (c.val ≥ 'a'.val) && decide (c.val ≤ 'z'.val)) := by rfl
  rw [h, Bool.and_eq_true, decide_eq_true_iff, decide_eq_true_iff]
  exact Iff.rfl

theorem isAlpha_iff {c : Char} : c.isAlpha = true ↔ c.isUpper = true ∨ c.isLower = true := by
  have h : c.isAlpha = (c.isUpper || c.isLower) := by rfl
  rw [h, Bool.or_eq_true]

theorem isAlphanum_iff {c : Char} : c.isAlphanum = true ↔ c.isAlpha = true ∨ c.isDigit = true := by
  have h : c.isAlphanum = (c.isAlpha || c.isDigit) := by rfl
  rw [h, Bool.or_eq_true]

theorem not_isDigit_of_isAlpha {c : Char} (h : c.isAlpha = true) : c.isDigit = false := by
  rw [isAlpha_iff, isUpper_iff, isLower_iff] at h
  rw [← Bool.not_eq_true, isDigit_iff]
  omega

/-- a letter in lower case comes from itself or from a capital letter 32 below it -/
theorem toLower_cases (c : Char) :
    (c.isUpper = true ∧ c.toLower.toNat = c.toNat + 32) ∨ (c.isUpper = false ∧ c.toLower = c) := by
  by_cases hc : c.val ≥ 'A'.val ∧ c.val ≤ 'Z'.val
  · refine .inl ⟨decide_eq_true hc, ?_⟩
    have hval : c.toLower.val = c.val + 32 := congrArg Char.val (dif_pos hc)
    have hle : c.val.toNat ≤ 90 := UInt32.le_iff_toNat_le.1 hc.2
    have hadd := congrArg UInt32.toNat hval
    rw [UInt32.toNat_add] at hadd
    have h32 : (32 : UInt32).toNat = 32 := rfl
    have hn : c.toNat = c.val.toNat := rfl
    have hn' : c.toLower.toNat = c.toLower.val.toNat := rfl
    omega
  · exact .inr ⟨decide_eq_false hc, dif_neg hc⟩

end SheetPost.Text
