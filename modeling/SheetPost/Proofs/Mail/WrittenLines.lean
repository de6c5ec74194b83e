/-
What a text in quoted-printable looks like. A written line is a row of tokens (`Row`): characters other than `=`, and
escapes of `=` and two digits. The lines that one line of text is wrapped to (`Wrapped`) are rows with a soft break
behind each of them but the last; the width that the writer counts is the length of the row so far, and it stays below
the limit by the one place that a soft break takes.

Main statement: every line is printable and at most 76 characters long, ends in no blank, and holds `=` only in front of
two upper-case digits or as a soft break, which never ends the text (`encode_lines`).
-/
import SheetPost.Proofs.Mail.QuotedPrintable
import SheetPost.Proofs.Text.Percent

namespace SheetPost.Mail.QuotedPrintable

open SheetPost.Text

/-! ## Lines -/

/-- the most characters that a line of mail should hold -/
def lineLimit : Nat := 76

/-- a blank or a visible character of ASCII -/
def IsPlain (c : Char) : Prop := c = ' ' ∨ c = '\t' ∨ (0x21 ≤ c.toNat ∧ c.toNat ≤ 0x7E)

/-- one of `0` to `9` and `A` to `F` -/
def IsUpperHex (c : Char) : Prop := (0x30 ≤ c.toNat ∧ c.toNat ≤ 0x39) ∨ (0x41 ≤ c.toNat ∧ c.toNat ≤ 0x46)

/-- a line as quoted-printable has it; `final` says that no line follows -/
structure IsLine (final : Bool) (l : List Char) : Prop where
  plain : ∀ c ∈ l, IsPlain c
  length_le : l.length ≤ lineLimit
  ends : ∀ c, l.getLast? = some c → c ≠ ' ' ∧ c ≠ '\t'
  /-- an equals sign is a soft break, or begins an escape -/
  equals : ∀ before after, l = before ++ '=' :: after →
    (after = [] ∧ final = false) ∨ ∃ a b rest, after = a :: b :: rest ∧ IsUpperHex a ∧ IsUpperHex b

theorem IsPlain.toNat_lt {c : Char} (h : IsPlain c) : c.toNat < 0x80 := by
  rcases h with rfl | rfl | h
  · decide
  · decide
  · omega

theorem IsLine.isAscii {final : Bool} {l : List Char} (h : IsLine final l) : isAscii l = true :=
  isAscii_iff.2 fun c hc => (h.plain c hc).toNat_lt

/-- what can be the final line can be any line -/
theorem IsLine.any {l : List Char} (h : IsLine true l) (final : Bool) : IsLine final l where
  plain := h.plain
  length_le := h.length_le
  ends := h.ends
  equals before after hl := by
    rcases h.equals before after hl with ⟨-, hf⟩ | he
    · cases hf
    · exact .inr he

/-! ## Tokens -/

theorem IsUpperHex.isPlain {c : Char} (h : IsUpperHex c) : IsPlain c := by
  unfold IsUpperHex at h
  right
  right
  omega

theorem IsUpperHex.ne_equals {c : Char} (h : IsUpperHex c) : c ≠ '=' := by
  rintro rfl
  revert h
  simp [IsUpperHex]

theorem isUpperHex_hexDigit {n : Nat} (h : n < 16) : IsUpperHex (hexDigit n) := by
  have key : ∀ m : Fin 16, (0x30 ≤ (hexDigit m).toNat ∧ (hexDigit m).toNat ≤ 0x39) ∨
      (0x41 ≤ (hexDigit m).toNat ∧ (hexDigit m).toNat ≤ 0x46) := by decide
  exact key ⟨n, h⟩

theorem isPlain_of_isLiteral {last : Bool} {b : UInt8} (h : isLiteral last b = true) :
    IsPlain (Char.ofNat b.toNat) := by
  unfold isLiteral at h
  split at h
  · next hs =>
    rcases Bool.or_eq_true_iff.1 hs with hs | hs
    · rw [beq_iff_eq.1 hs]
      exact .inl rfl
    · rw [beq_iff_eq.1 hs]
      exact .inr (.inl rfl)
  · simp only [Bool.and_eq_true, decide_eq_true_eq, UInt8.le_iff_toNat_le] at h
    have hlow : 33 ≤ b.toNat := h.1.2
    have hhigh : b.toNat ≤ 126 := h.2
    right
    right
    rw [Percent.toNat_ofNat_of_lt (by omega)]
    omega

theorem length_token_le (last : Bool) (b : UInt8) : (token last b).length ≤ 3 := by
  unfold token
  split <;> simp [hexByte]

/-! ## Rows of tokens -/

/-- tokens one behind the other -/
inductive Row : List Char → Prop where
  | nil : Row []
  | literal {c : Char} {s : List Char} : IsPlain c → c ≠ '=' → Row s → Row (c :: s)
  | escape {a b : Char} {s : List Char} : IsUpperHex a → IsUpperHex b → Row s → Row ('=' :: a :: b :: s)

theorem Row.token {s : List Char} (h : Row s) (last : Bool) (b : UInt8) : Row (token last b ++ s) := by
  unfold QuotedPrintable.token
  split
  · next hb =>
    obtain ⟨c, hc, -, -, hne, -⟩ := char_of_literal hb
    have hplain := isPlain_of_isLiteral hb
    rw [hc] at hplain ⊢
    exact .literal hplain hne h
  · have hb := b.toNat_lt
    exact .escape (isUpperHex_hexDigit (by omega)) (isUpperHex_hexDigit (by omega)) h

theorem Row.plain {s : List Char} (h : Row s) : ∀ c ∈ s, IsPlain c := by
  induction h with
  | nil => simp
  | literal hc _ _ ih =>
    intro d hd
    rcases List.mem_cons.1 hd with rfl | hd
    · exact hc
    · exact ih d hd
  | escape ha hb _ ih =>
    intro d hd
    simp only [List.mem_cons] at hd
    rcases hd with rfl | rfl | rfl | hd
    · exact .inr (.inr (by decide))
    · exact ha.isPlain
    · exact hb.isPlain
    · exact ih d hd

/-- an equals sign in a row begins an escape -/
theorem Row.equals {s : List Char} (h : Row s) {before after : List Char} (hs : s = before ++ '=' :: after) :
    ∃ a b rest, after = a :: b :: rest ∧ IsUpperHex a ∧ IsUpperHex b := by
  -- on the tokens; the sign stands at the front of an escape, or in the tokens behind the first
  induction h generalizing before with
  | nil => simp at hs
  | literal hc hne _ ih =>
    cases before with
    | nil =>
      simp only [List.nil_append, List.cons.injEq] at hs
      exact absurd hs.1 hne
    | cons x before =>
      simp only [List.cons_append, List.cons.injEq] at hs
      exact ih hs.2
  | @escape a b t ha hb _ ih =>
    match before, hs with
    | [], hs =>
      simp only [List.nil_append, List.cons.injEq, true_and] at hs
      exact ⟨a, b, t, hs.symm, ha, hb⟩
    | [_], hs =>
      simp only [List.cons_append, List.nil_append, List.cons.injEq] at hs
      exact absurd hs.2.1 ha.ne_equals
    | [_, _], hs =>
      simp only [List.cons_append, List.nil_append, List.cons.injEq] at hs
      exact absurd hs.2.2.1 hb.ne_equals
    | _ :: _ :: _ :: before, hs =>
      simp only [List.cons_append, List.cons.injEq] at hs
      exact ih hs.2.2.2

/-- a row that is no longer than the room for it is a line -/
theorem Row.isLine {l : List Char} (h : Row l) (he : l = [] ∨ Tight l) (hw : l.length ≤ room) : IsLine true l where
  plain := h.plain
  length_le := Nat.le_trans hw (by decide)
  ends c hc := by
    rcases he with rfl | ⟨d, hd, hblank⟩
    · cases hc
    · rw [hc, Option.some.injEq] at hd
      exact hd ▸ hblank
  equals before after hl := .inr (h.equals hl)

/-- and a soft break fits behind it -/
theorem Row.isLine_soft {l : List Char} (h : Row l) (hw : l.length ≤ room) : IsLine false (l ++ ['=']) where
  plain c hc := by
    rcases List.mem_append.1 hc with hc | hc
    · exact h.plain c hc
    · rw [List.mem_singleton.1 hc]
      exact .inr (.inr (by decide))
  length_le := by
    rw [List.length_append]
    exact Nat.succ_le_succ hw
  ends c hc := by
    rw [List.getLast?_concat, Option.some.injEq] at hc
    subst hc
    decide
  equals before after hl := by
    rcases List.eq_nil_or_concat after with rfl | ⟨inner, x, rfl⟩
    · exact .inl ⟨rfl, rfl⟩
    · -- the sign is not the soft break, so it stands in the row
      right
      rw [List.concat_eq_append, ← List.cons_append, ← List.append_assoc] at hl
      obtain ⟨a, b, rest, rfl, ha, hb⟩ := h.equals (List.append_inj_left' hl rfl)
      exact ⟨a, b, rest ++ [x], by simp, ha, hb⟩

/-! ## Lines of one line of text -/

/-- the lines that a line of text is wrapped to, where `width` characters stand in front of the first -/
inductive Wrapped : Nat → List (List Char) → Prop where
  | last {width : Nat} {l : List Char} : Row l → l = [] ∨ Tight l → width + l.length ≤ room → Wrapped width [l]
  | soft {width : Nat} {l : List Char} {ls : List (List Char)} : Row l → width + l.length ≤ room → Wrapped 0 ls →
    Wrapped width ((l ++ ['=']) :: ls)

/-- a token that was counted goes to the front of the first line -/
theorem Wrapped.token {last : Bool} {b : UInt8} {width : Nat} {l : List Char} {ls : List (List Char)}
    (h : Wrapped (width + (token last b).length) (l :: ls)) (ht : Tight (QuotedPrintable.token last b ++ l)) :
    Wrapped width ((QuotedPrintable.token last b ++ l) :: ls) := by
  cases h with
  | last hr _ hw =>
    refine .last (hr.token last b) (.inr ht) ?_
    rw [List.length_append]
    omega
  | @soft _ l _ hr hw hs =>
    rw [← List.append_assoc]
    refine .soft (hr.token last b) ?_ hs
    rw [List.length_append]
    omega

theorem wrapped_encodeLineFrom {width : Nat} (h : width ≤ room) (bytes : List UInt8) :
    Wrapped width (splitLines (encodeLineFrom width bytes)) := by
  induction bytes generalizing width with
  | nil => exact .last .nil (.inl rfl) h
  | cons b r ih =>
    have step {w : Nat} (hw : w + (token r.isEmpty b).length ≤ room) :
        Wrapped w (splitLines (token r.isEmpty b ++ encodeLineFrom (w + (token r.isEmpty b).length) r)) := by
      obtain ⟨l, ls, hs, -, ht⟩ := tight_token_append b (w + (token r.isEmpty b).length) r
      have hrest := ih hw
      rw [hs] at hrest
      rw [splitLines_append (cr_not_mem_token _ b) hs]
      exact hrest.token ht
    unfold encodeLineFrom
    dsimp only
    split
    · have hfirst : (token r.isEmpty b).length ≤ room := Nat.le_trans (length_token_le _ b) (by decide)
      have hnext := step (w := 0) (by rwa [Nat.zero_add])
      rw [Nat.zero_add] at hnext
      rw [splitLines_soft]
      exact .soft .nil h hnext
    · next hfits => exact step (Nat.le_of_not_lt hfits)

/-- all lines but the last have a soft break, and the last has none -/
theorem Wrapped.isLine {width : Nat} {ls : List (List Char)} (h : Wrapped width ls) :
    ∃ front last, ls = front ++ [last] ∧ (∀ l ∈ front, IsLine false l) ∧ IsLine true last := by
  induction h with
  | last hr he hw => exact ⟨[], _, rfl, by simp, hr.isLine he (by omega)⟩
  | soft hr hw _ ih =>
    obtain ⟨front, last, rfl, hfront, hlast⟩ := ih
    refine ⟨_ :: front, last, rfl, ?_, hlast⟩
    intro l hl
    rcases List.mem_cons.1 hl with rfl | hl
    · exact hr.isLine_soft (by omega)
    · exact hfront l hl

/-! ## Lines of a text -/

/-- every written line is one of those that some line of the text is wrapped to -/
theorem isLine_of_mem {text l : List Char} (h : l ∈ splitLines (encode text)) : IsLine false l := by
  rw [splitLines_encode] at h
  obtain ⟨line, -, hl⟩ := List.mem_flatMap.1 h
  obtain ⟨front, last, hs, hfront, hlast⟩ := (wrapped_encodeLineFrom (Nat.zero_le room) (Utf8.encode line)).isLine
  rw [encodeLine, hs] at hl
  rcases List.mem_append.1 hl with hl | hl
  · exact hfront l hl
  · rw [List.mem_singleton.1 hl]
    exact hlast.any false

theorem isLine_lines (l : List Char) (ls : List (List Char)) :
    ∃ front last, (l :: ls).flatMap (fun line => splitLines (encodeLine line)) = front ++ [last] ∧
      (∀ m ∈ front, IsLine false m) ∧ IsLine true last := by
  induction ls generalizing l with
  | nil =>
    rw [List.flatMap_cons, List.flatMap_nil, List.append_nil]
    exact (wrapped_encodeLineFrom (Nat.zero_le room) _).isLine
  | cons m ls ih =>
    obtain ⟨soft, hard, hs, hsoft, hhard⟩ := (wrapped_encodeLineFrom (Nat.zero_le room) (Utf8.encode l)).isLine
    obtain ⟨front, last, hf, hfront, hlast⟩ := ih m
    refine ⟨soft ++ [hard] ++ front, last, ?_, ?_, hlast⟩
    · rw [List.flatMap_cons, hf, encodeLine, hs, List.append_assoc (soft ++ [hard])]
    · intro k hk
      simp only [List.mem_append, List.mem_singleton] at hk
      rcases hk with (hk | rfl) | hk
      · exact hsoft k hk
      · exact hhard.any false
      · exact hfront k hk

/-- **Every written line is one that mail carries unchanged**: blanks and visible ASCII only, at most 76 characters, no
blank at its end, and an equals sign only as a soft break, which the final line has not, or in front of two digits. -/
theorem encode_lines (text : List Char) :
    ∃ front last, splitLines (encode text) = front ++ [last] ∧ (∀ l ∈ front, IsLine false l) ∧ IsLine true last := by
  rw [splitLines_encode]
  cases hl : linesOf text with
  | nil => exact absurd hl (linesOf_ne_nil text)
  | cons l ls => exact isLine_lines l ls

example : (splitLines (encode (List.replicate 77 'z'))).map List.length = [76, 2] := by decide

end SheetPost.Mail.QuotedPrintable
