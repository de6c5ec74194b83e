/-
Which texts are numbers to a column that prefers numbers: digits with at most one point among them, a sign before and an
exponent behind them if need be, and blanks at both ends. A part of a numeral never begins with what its front may hold,
so the reader cuts a text where the grammar does.

Main statement: `isSome_readNumber?_iff`.
-/
import Mathlib.Data.List.TakeDrop
import SheetPost.Proofs.Text.Numeral
import SheetPost.Proofs.Text.Trim
import SheetPost.Sqlite.Value

namespace SheetPost.Sqlite

open SheetPost.Text

/-! ## Numerals -/

/-- digits and nothing else, perhaps none -/
def AreDigits (s : List Char) : Prop := ∀ c ∈ s, c.isDigit = true

/-- a sign, or none -/
def IsSign (s : List Char) : Prop := s = [] ∨ s = ['+'] ∨ s = ['-']

/-- digits, and perhaps a point that need not have digits on both sides -/
inductive IsSignificand : List Char → Prop
  | whole {w : List Char} : w ≠ [] → AreDigits w → IsSignificand w
  | pointed {w f : List Char} : w ≠ [] ∨ f ≠ [] → AreDigits w → AreDigits f → IsSignificand (w ++ '.' :: f)

/-- an exponent, or none -/
inductive IsExponent : List Char → Prop
  | absent : IsExponent []
  | present {e : Char} {sign digits : List Char} :
      e = 'e' ∨ e = 'E' → IsSign sign → digits ≠ [] → AreDigits digits → IsExponent (e :: (sign ++ digits))

/-- a text that reads as a number -/
inductive IsNumeral : List Char → Prop
  | mk {front sign significand exponent back : List Char} :
      (∀ c ∈ front, isSpace c = true) → IsSign sign → IsSignificand significand → IsExponent exponent →
        (∀ c ∈ back, isSpace c = true) → IsNumeral (front ++ (sign ++ (significand ++ exponent) ++ back))

/-! ## Parts -/

variable {s t sign significand exponent w f : List Char} {c : Char}

theorem not_isSpace_of_isDigit (h : c.isDigit = true) : isSpace c = false := by
  have hc := isDigit_iff.1 h
  simp only [isSpace, Bool.or_eq_false_iff, beq_eq_false_iff_ne, Bool.and_eq_false_iff, decide_eq_false_iff_not]
  refine ⟨?_, by omega⟩
  rintro rfl
  cases h

theorem IsSign.not_isSpace (h : IsSign sign) (hc : c ∈ sign) : isSpace c = false := by
  rcases h with rfl | rfl | rfl
  · cases hc
  · rw [List.mem_singleton.1 hc]
    rfl
  · rw [List.mem_singleton.1 hc]
    rfl

namespace IsSignificand

theorem mem (h : IsSignificand significand) (hc : c ∈ significand) : c.isDigit = true ∨ c = '.' := by
  cases h with
  | whole _ hw => exact .inl (hw c hc)
  | pointed _ hw hf =>
    rcases List.mem_append.1 hc with hc | hc
    · exact .inl (hw c hc)
    · rcases List.mem_cons.1 hc with rfl | hc
      · exact .inr rfl
      · exact .inl (hf c hc)

theorem not_isSpace (h : IsSignificand significand) (hc : c ∈ significand) : isSpace c = false := by
  rcases h.mem hc with hc | rfl
  · exact not_isSpace_of_isDigit hc
  · rfl

/-- there is no sign at its head, and what stands there stays when something follows -/
theorem head (h : IsSignificand significand) (t : List Char) :
    (significand ++ t).head? ≠ some '-' ∧ (significand ++ t).head? ≠ some '+' := by
  have hne : significand ≠ [] := by
    cases h with
    | whole hne _ => exact hne
    | pointed => simp
  obtain ⟨c, r, rfl⟩ := List.exists_cons_of_ne_nil hne
  rw [List.cons_append, List.head?_cons]
  constructor
  all_goals
    intro hc
    cases hc
    rcases h.mem List.mem_cons_self with hc | hc <;> cases hc

end IsSignificand

namespace IsExponent

theorem not_isSpace (h : IsExponent exponent) (hc : c ∈ exponent) : isSpace c = false := by
  cases h with
  | absent => cases hc
  | present he hsign _ hdigits =>
    rcases List.mem_cons.1 hc with rfl | hc
    · rcases he with rfl | rfl <;> rfl
    · rcases List.mem_append.1 hc with hc | hc
      · exact hsign.not_isSpace hc
      · exact not_isSpace_of_isDigit (hdigits c hc)

/-- its letter is all that it begins with -/
theorem head (h : IsExponent exponent) (hc : exponent.head? = some c) : c = 'e' ∨ c = 'E' := by
  cases h with
  | absent => cases hc
  | present he =>
    cases hc
    exact he

end IsExponent

/-! ## Signs -/

theorem exists_sign (s : List Char) : ∃ sign, IsSign sign ∧ s = sign ++ (cutSign s).2 := by
  unfold cutSign
  split
  · exact ⟨['-'], .inr (.inr rfl), rfl⟩
  · exact ⟨['+'], .inr (.inl rfl), rfl⟩
  · exact ⟨[], .inl rfl, rfl⟩

theorem cutSign_append (h : IsSign sign) (hs : s.head? ≠ some '-' ∧ s.head? ≠ some '+') :
    (cutSign (sign ++ s)).2 = s := by
  rcases h with rfl | rfl | rfl
  · rw [List.nil_append]
    unfold cutSign
    split
    · exact absurd List.head?_cons hs.1
    · exact absurd List.head?_cons hs.2
    · rfl
  · rfl
  · rfl

theorem isSome_readDigits?_iff : (readDigits? 10 s).isSome = true ↔ s ≠ [] ∧ AreDigits s := by
  constructor
  · intro h
    obtain ⟨n, hn⟩ := Option.isSome_iff_exists.1 h
    exact isDigit_of_readDigits? hn
  · rintro ⟨hne, hs⟩
    simp [readDigits?, hne, readDigitsFrom?_of_isDigit hs]

theorem AreDigits.head (h : AreDigits s) : s.head? ≠ some '-' ∧ s.head? ≠ some '+' := by
  constructor
  all_goals
    intro hs
    have := h _ (List.mem_of_head? hs)
    cases this

theorem isSome_readExponent?_iff : (readExponent? s).isSome = true ↔ IsExponent s := by
  cases s with
  | nil => exact ⟨fun _ => .absent, fun _ => rfl⟩
  | cons e r =>
    by_cases he : e = 'e' ∨ e = 'E'
    · have hread : (readExponent? (e :: r)).isSome = (readDigits? 10 (cutSign r).2).isSome := by
        rw [readExponent?, if_pos (by simpa using he)]
        cases hdigits : readDigits? 10 (cutSign r).2 <;> simp [hdigits]
      rw [hread, isSome_readDigits?_iff]
      constructor
      · rintro ⟨hne, hdigits⟩
        obtain ⟨sign, hsign, hr⟩ := exists_sign r
        rw [hr]
        exact .present he hsign hne hdigits
      · intro h
        cases h with
        | present _ hsign hne hdigits =>
          rw [cutSign_append hsign hdigits.head]
          exact ⟨hne, hdigits⟩
    · have hread : readExponent? (e :: r) = none := by
        rw [readExponent?, if_neg (by simpa using he)]
      rw [hread]
      constructor
      · intro hsome
        cases hsome
      · intro h
        cases h with
        | present he' => exact absurd he' he

/-! ## Reading -/

/-- what stands behind digits ends them -/
def NoDigitAhead (s : List Char) : Prop := ∀ c, s.head? = some c → c.isDigit = false

theorem IsExponent.noDigitAhead (h : IsExponent exponent) : NoDigitAhead exponent := by
  intro c hc
  rcases h.head hc with rfl | rfl <;> rfl

theorem dropWhile_digits (hw : AreDigits w) (hs : NoDigitAhead s) : (w ++ s).dropWhile Char.isDigit = s := by
  rw [List.dropWhile_append_of_pos hw, dropWhile_eq_self hs]

theorem noDigitAhead_dropWhile (s : List Char) : NoDigitAhead (s.dropWhile Char.isDigit) := by
  intro c hc
  have := List.head?_dropWhile_not Char.isDigit s
  rw [hc] at this
  simpa using this

theorem isSome_readNumber?_whole (h : (cutSign (trimWhile isSpace s)).2 = w ++ t) (hw : AreDigits w)
    (ht : NoDigitAhead t) (hpoint : t.head? ≠ some '.') :
    (readNumber? s).isSome = true ↔ w ≠ [] ∧ IsExponent t := by
  unfold readNumber?
  simp only [h, List.span_eq_takeWhile_dropWhile, takeWhile_append hw ht, dropWhile_digits hw ht]
  rw [← isSome_readExponent?_iff]
  split
  · exact absurd List.head?_cons hpoint
  · by_cases hne : w = []
    · simp [hne]
    · by_cases hbehind : t = []
      · -- whether the number can be stored or not, nothing behind the digits is an exponent
        simp [hne, hbehind, readExponent?, apply_ite Option.isSome]
      · simp [hne, hbehind]

theorem isSome_readNumber?_pointed (h : (cutSign (trimWhile isSpace s)).2 = w ++ '.' :: (f ++ t)) (hw : AreDigits w)
    (hf : AreDigits f) (ht : NoDigitAhead t) :
    (readNumber? s).isSome = true ↔ (w ≠ [] ∨ f ≠ []) ∧ IsExponent t := by
  have hpoint : NoDigitAhead ('.' :: (f ++ t)) := by
    rintro c hc
    cases hc
    rfl
  unfold readNumber?
  simp only [h, List.span_eq_takeWhile_dropWhile, takeWhile_append hw hpoint, dropWhile_digits hw hpoint,
    takeWhile_append hf ht, dropWhile_digits hf ht]
  rw [← isSome_readExponent?_iff]
  by_cases hne : w = [] ∧ f = []
  · simp [hne.1, hne.2]
  · simp [hne, ← not_and_or]

/-- a text is taken apart as the reader does it -/
theorem exists_parts (u : List Char) :
    (∃ w t, u = w ++ t ∧ AreDigits w ∧ NoDigitAhead t ∧ t.head? ≠ some '.') ∨
      ∃ w f t, u = w ++ '.' :: (f ++ t) ∧ AreDigits w ∧ AreDigits f ∧ NoDigitAhead t := by
  have hcut := (List.takeWhile_append_dropWhile (p := Char.isDigit) (l := u)).symm
  have hw : AreDigits (u.takeWhile Char.isDigit) := fun c hc => List.mem_takeWhile_imp hc
  have hbehind := noDigitAhead_dropWhile u
  rcases hrest : u.dropWhile Char.isDigit with _ | ⟨c, r⟩
  · rw [hrest] at hcut hbehind
    exact .inl ⟨_, _, hcut, hw, hbehind, nofun⟩
  · rw [hrest] at hcut hbehind
    by_cases hc : c = '.'
    · subst hc
      refine .inr ⟨_, r.takeWhile Char.isDigit, r.dropWhile Char.isDigit, ?_, hw,
        fun c hc => List.mem_takeWhile_imp hc, noDigitAhead_dropWhile r⟩
      rwa [List.takeWhile_append_dropWhile]
    · exact .inl ⟨_, _, hcut, hw, hbehind, by simpa using hc⟩

/-- the blanks around a numeral and its sign are cut off, and nothing else of it -/
theorem cutSign_numeral {front back : List Char} (hfront : ∀ c ∈ front, isSpace c = true)
    (hback : ∀ c ∈ back, isSpace c = true) (hsign : IsSign sign) (hs : IsSignificand significand)
    (he : IsExponent exponent) :
    (cutSign (trimWhile isSpace (front ++ (sign ++ (significand ++ exponent) ++ back)))).2 =
      significand ++ exponent := by
  have hnone : ∀ c ∈ sign ++ (significand ++ exponent), isSpace c = false := by
    intro c hc
    rcases List.mem_append.1 hc with hc | hc
    · exact hsign.not_isSpace hc
    · rcases List.mem_append.1 hc with hc | hc
      · exact hs.not_isSpace hc
      · exact he.not_isSpace hc
  rw [trimWhile_behind hfront, trimWhile_append hback, trimWhile_eq_self
    (fun c hc => hnone c (List.mem_of_head? hc)) fun c hc => hnone c (List.mem_of_getLast? hc)]
  exact cutSign_append hsign (hs.head exponent)

/-- **The texts that are read as numbers are the numerals** -/
theorem isSome_readNumber?_iff : (readNumber? s).isSome = true ↔ IsNumeral s := by
  constructor
  · intro h
    obtain ⟨front, back, hs, hfront, hback⟩ := exists_trimWhile isSpace s
    obtain ⟨sign, hsign, hcut⟩ := exists_sign (trimWhile isSpace s)
    rw [hs, hcut]
    rcases exists_parts (cutSign (trimWhile isSpace s)).2 with ⟨w, t, hparts, hw, ht, hpoint⟩ |
      ⟨w, f, t, hparts, hw, hf, ht⟩
    · obtain ⟨hne, he⟩ := (isSome_readNumber?_whole hparts hw ht hpoint).1 h
      rw [hparts]
      exact .mk hfront hsign (.whole hne hw) he hback
    · obtain ⟨hne, he⟩ := (isSome_readNumber?_pointed hparts hw hf ht).1 h
      rw [hparts, ← List.cons_append, ← List.append_assoc w]
      exact .mk hfront hsign (.pointed hne hw hf) he hback
  · rintro ⟨hfront, hsign, hs, he, hback⟩
    have hcut := cutSign_numeral hfront hback hsign hs he
    cases hs with
    | whole hne hw =>
      refine (isSome_readNumber?_whole hcut hw he.noDigitAhead fun hc => ?_).2 ⟨hne, he⟩
      rcases he.head hc with hc | hc <;> cases hc
    | pointed hne hw hf =>
      refine (isSome_readNumber?_pointed (hcut.trans ?_) hw hf he.noDigitAhead).2 ⟨hne, he⟩
      rw [List.append_assoc, List.cons_append]

theorem readNumber?_eq_none_iff : readNumber? s = none ↔ ¬ IsNumeral s := by
  rw [← isSome_readNumber?_iff, Bool.not_eq_true, Option.isSome_eq_false_iff, Option.isNone_iff_eq_none]

end SheetPost.Sqlite
