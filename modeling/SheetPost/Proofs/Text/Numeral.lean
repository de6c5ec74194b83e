/-
What a numeral that is read consists of.

Main statement: a run of decimal digits is all that is read as a number without a sign (`isDigit_of_readDigits?`).
-/
import Mathlib.Algebra.Ring.Nat
import Mathlib.Data.List.Basic
import SheetPost.Proofs.Text.Letter
import SheetPost.Text.Numeral

namespace SheetPost.Text

theorem isDigit_of_digitValue? {c : Char} {v : Nat} (h : digitValue? 10 c = some v) : c.isDigit = true := by
  rw [isDigit_iff]
  by_contra hn
  -- a letter counts from ten, and any other character is beyond the base
  simp only [digitValue?, if_neg hn, Option.ite_none_right_eq_some] at h
  obtain ⟨hlt, -⟩ := h
  split at hlt
  · omega
  · split at hlt <;> omega

/-- every character of a numeral is a digit of its base -/
theorem isSome_digitValue?_of_readDigitsFrom? {base acc n : Nat} {s : List Char}
    (h : readDigitsFrom? base acc s = some n) : ∀ c ∈ s, (digitValue? base c).isSome = true := by
  induction s generalizing acc with
  | nil => exact List.forall_mem_nil _
  | cons c s ih =>
    obtain ⟨v, hv, h⟩ := Option.bind_eq_some_iff.1 h
    exact List.forall_mem_cons.2 ⟨by rw [hv]; rfl, ih h⟩

theorem isSome_digitValue?_of_readDigits? {base n : Nat} {s : List Char} (h : readDigits? base s = some n) :
    ∀ c ∈ s, (digitValue? base c).isSome = true := by
  unfold readDigits? at h
  split at h
  · cases h
  · exact isSome_digitValue?_of_readDigitsFrom? h

/-- **A number without a sign is digits, and there is one** -/
theorem isDigit_of_readDigits? {n : Nat} {s : List Char} (h : readDigits? 10 s = some n) :
    s ≠ [] ∧ ∀ c ∈ s, c.isDigit = true := by
  refine ⟨?_, fun c hc => ?_⟩
  · rintro rfl
    cases h
  · obtain ⟨v, hv⟩ := Option.isSome_iff_exists.1 (isSome_digitValue?_of_readDigits? h c hc)
    exact isDigit_of_digitValue? hv

theorem not_mem_of_readDigits? {n : Nat} {s : List Char} (h : readDigits? 10 s = some n) {x : Char}
    (hx : x.isDigit = false) : x ∉ s := by
  intro hmem
  rw [(isDigit_of_readDigits? h).2 x hmem] at hx
  cases hx

/-! ## Digits -/

theorem digitValue?_lt {base v : Nat} {c : Char} (h : digitValue? base c = some v) : v < base := by
  simp only [digitValue?, Option.ite_none_right_eq_some] at h
  obtain ⟨hlt, hv⟩ := h
  exact Option.some.inj hv ▸ hlt

/-- a digit is one in every greater base -/
theorem isSome_digitValue?_mono {base base' : Nat} (hle : base ≤ base') {c : Char}
    (h : (digitValue? base c).isSome = true) : (digitValue? base' c).isSome = true := by
  simp only [digitValue?, Option.isSome_ite] at h ⊢
  split_ifs at h ⊢ <;> omega

/-- as many digits as there are write no greater number -/
theorem readDigitsFrom?_lt {base acc n : Nat} {s : List Char} (h : readDigitsFrom? base acc s = some n) :
    n < (acc + 1) * base ^ s.length := by
  induction s generalizing acc with
  | nil =>
    cases h
    simp
  | cons c s ih =>
    obtain ⟨v, hv, h⟩ := Option.bind_eq_some_iff.1 h
    have hlt := digitValue?_lt hv
    calc n < (acc * base + v + 1) * base ^ s.length := ih h
      _ ≤ ((acc + 1) * base) * base ^ s.length := by
        refine Nat.mul_le_mul_right _ ?_
        rw [Nat.add_mul]
        omega
      _ = (acc + 1) * base ^ (c :: s).length := by rw [List.length_cons, Nat.pow_succ, Nat.mul_assoc, Nat.mul_comm base]

theorem digitValue?_of_isDigit {c : Char} (h : c.isDigit = true) :
    digitValue? 10 c = some (c.toNat - '0'.toNat) := by
  have hc := isDigit_iff.1 h
  have hzero : '0'.toNat = 0x30 := rfl
  rw [digitValue?]
  simp only [if_pos hc, hzero]
  rw [if_pos (by omega)]

theorem readDigitsFrom?_of_isDigit {s : List Char} (h : ∀ c ∈ s, c.isDigit = true) (acc : Nat) :
    readDigitsFrom? 10 acc s = some (Nat.ofDigitChars 10 s acc) := by
  induction s generalizing acc with
  | nil => rfl
  | cons c s ih =>
    rw [readDigitsFrom?, digitValue?_of_isDigit (h c List.mem_cons_self), Option.bind_some,
      ih fun d hd => h d (List.mem_cons_of_mem c hd), Nat.ofDigitChars_cons, Nat.mul_comm]

/-- the limit is all that a numeral without a sign is held to -/
theorem readUnsigned?_of_not_mem {base limit : Nat} {s : List Char} (h : '+' ∉ s) :
    readUnsigned? base limit s = (readDigits? base s).filter (· ≤ limit) := by
  unfold readUnsigned?
  split
  · next r => exact absurd List.mem_cons_self h
  · rfl

/-- digits are read as the number that they write, if it is within the limit -/
theorem readUnsigned?_of_isDigit {s : List Char} (hne : s ≠ []) (h : ∀ c ∈ s, c.isDigit = true) (limit : Nat) :
    readUnsigned? 10 limit s =
      if Nat.ofDigitChars 10 s 0 ≤ limit then some (Nat.ofDigitChars 10 s 0) else none := by
  have hread : readDigits? 10 s = some (Nat.ofDigitChars 10 s 0) := by
    have hempty : s.isEmpty = false := by simp [hne]
    rw [readDigits?, hempty]
    exact readDigitsFrom?_of_isDigit h 0
  have hplus : '+' ∉ s := fun hmem => by cases h '+' hmem
  simp [readUnsigned?_of_not_mem hplus, hread, Option.filter_some]

theorem readUnsigned?_of_readDigits? {n limit : Nat} {s : List Char} (h : readDigits? 10 s = some n) (hn : n ≤ limit) :
    readUnsigned? 10 limit s = some n := by
  simp [readUnsigned?_of_not_mem (not_mem_of_readDigits? h rfl), h, hn]

end SheetPost.Text
