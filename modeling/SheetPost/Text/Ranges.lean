/-
Sets of characters given by ascending ranges of code points, the form in which the property tables are kept.
-/

namespace SheetPost.Text

/-- the number lies in one of the ranges, which ascend: the search ends at the first range that reaches it -/
def inRanges (n : Nat) : List (Nat × Nat) → Bool
  | [] => false
  | (lo, hi) :: r => if n ≤ hi then lo ≤ n else inRanges n r

theorem inRanges_eq_true {n : Nat} {rs : List (Nat × Nat)} (h : inRanges n rs = true) :
    ∃ p ∈ rs, p.1 ≤ n ∧ n ≤ p.2 := by
  induction rs with
  | nil => simp [inRanges] at h
  | cons p r ih =>
    obtain ⟨lo, hi⟩ := p
    simp only [inRanges] at h
    split at h
    · next hle => exact ⟨(lo, hi), by simp, by simpa using h, hle⟩
    · obtain ⟨q, hq, hb⟩ := ih h
      exact ⟨q, by simp [hq], hb⟩

end SheetPost.Text
