/-
Line breaks in quoted-printable. A text says its line breaks as LF or as CR LF, and both are written as mail's break; a
CR that stands before no LF is a character like any other. So two texts are written alike just if they are the same once
every LF has a CR before it.

Main statement: what is read back is the text with a CR before every LF that had none, every CR of the text in its
place, and texts are told apart just by that (`encode_faithful`).
-/
import SheetPost.Proofs.Mail.QuotedPrintable
import SheetPost.Proofs.Text.Utf8

namespace SheetPost.Mail.QuotedPrintable

open SheetPost.Text

/-- a text that follows `previous`, with a CR put before every LF that does not stand behind one -/
def withCRs (previous : Option Char) : List Char → List Char
  | [] => []
  | c :: r =>
    if c = '\n' ∧ previous ≠ some '\r' then '\r' :: '\n' :: withCRs (some c) r
    else c :: withCRs (some c) r

/-! ## Carriage returns -/

theorem withCRs_cons {previous : Option Char} {c : Char} (h : c = '\n' → previous = some '\r') (r : List Char) :
    withCRs previous (c :: r) = c :: withCRs (some c) r := by
  rw [withCRs, if_neg]
  intro hc
  exact hc.2 (h hc.1)

theorem withCRs_cr (previous : Option Char) (r : List Char) :
    withCRs previous ('\r' :: r) = '\r' :: withCRs (some '\r') r :=
  withCRs_cons (fun he => absurd he (by decide)) r

theorem withCRs_lf {previous : Option Char} (h : previous ≠ some '\r') (r : List Char) :
    withCRs previous ('\n' :: r) = '\r' :: '\n' :: withCRs (some '\n') r := by
  rw [withCRs, if_pos ⟨rfl, h⟩]

/-- what stands before a text matters to an LF at its front only -/
theorem withCRs_eq_of_head {s : List Char} (h : ∀ r, s ≠ '\n' :: r) (previous other : Option Char) :
    withCRs previous s = withCRs other s := by
  cases s with
  | nil => rfl
  | cons c r =>
    have hc : c ≠ '\n' := by
      rintro rfl
      exact h r rfl
    rw [withCRs_cons (fun he => absurd he hc), withCRs_cons fun he => absurd he hc]

/-- the two ways to say what mail's breaks are: by pairs of characters, and by the character before -/
theorem withCRs_eq_withMailBreaks {previous : Option Char} (h : previous ≠ some '\r') (text : List Char) :
    withCRs previous text = withMailBreaks text := by
  fun_induction withMailBreaks text generalizing previous with
  | case1 => rfl
  | case2 r ih =>
    rw [withCRs_cr, withCRs_cons fun _ => rfl, ih (by decide)]
  | case3 r ih => rw [withCRs_lf h, ih (by decide)]
  | case4 c r hpair hc ih =>
    rw [withCRs_cons fun he => absurd he hc]
    by_cases hcr : c = '\r'
    · rw [withCRs_eq_of_head (fun t ht => hpair t hcr ht) (some c) none, ih (by decide)]
    · rw [ih (by simpa using hcr)]

/-- a CR stays where it is, between what comes of the text before it and of the text behind it -/
theorem withCRs_append_cr (previous : Option Char) (before behind : List Char) :
    withCRs previous (before ++ '\r' :: behind) = withCRs previous before ++ '\r' :: withCRs (some '\r') behind := by
  induction before generalizing previous with
  | nil => exact withCRs_cr previous behind
  | cons c r ih =>
    rw [List.cons_append, withCRs, withCRs, ih]
    split <;> rfl

/-! ## Texts that are written alike -/

theorem withMailBreaks_ne_lf (text r : List Char) : withMailBreaks text ≠ '\n' :: r := by
  fun_cases withMailBreaks text with
  | case1 => simp
  | case2 => simp
  | case3 => simp
  | case4 c r _ hc =>
    intro he
    exact hc (List.cons.inj he).1

/-- mail's breaks in place of those of the text make the same lines -/
theorem linesOf_withMailBreaks (text : List Char) : linesOf (withMailBreaks text) = linesOf text := by
  fun_induction withMailBreaks text with
  | case1 => rfl
  | case2 r ih => rw [linesOf_crlf, linesOf_crlf, ih]
  | case3 r ih => rw [linesOf_crlf, linesOf_lf, ih]
  | case4 c r hpair hc ih =>
    cases hl : linesOf r with
    | nil => exact absurd hl (linesOf_ne_nil r)
    | cons l ls =>
      rw [hl] at ih
      rw [linesOf_cons hc (fun t _ => withMailBreaks_ne_lf r t) ih, linesOf_cons hc hpair hl]

theorem encode_withMailBreaks (text : List Char) : encode (withMailBreaks text) = encode text := by
  rw [encode, encode, linesOf_withMailBreaks]

theorem encode_eq_of_withMailBreaks_eq {text other : List Char} (h : withMailBreaks text = withMailBreaks other) :
    encode text = encode other :=
  calc encode text = encode (withMailBreaks text) := (encode_withMailBreaks text).symm
    _ = encode (withMailBreaks other) := by rw [h]
    _ = encode other := encode_withMailBreaks other

theorem withMailBreaks_eq_of_encode_eq {text other : List Char} (h : encode text = encode other) :
    withMailBreaks text = withMailBreaks other := by
  apply Utf8.encode_inj
  apply Option.some.inj
  rw [← decode?_encode, ← decode?_encode, h]

/-- **Quoted-printable keeps a text but for how it says its line breaks.** The strict reader gives back the text with a
CR before every LF that had none. Every CR of the text is read back where it stood, before an LF or not, and two texts
are written alike just if they are read back alike. -/
theorem encode_faithful (text : List Char) :
    decode? (encode text) = some (Utf8.encode (withCRs none text)) ∧
    (∀ before behind, text = before ++ '\r' :: behind →
      decode? (encode text) =
        some (Utf8.encode (withCRs none before) ++ 0x0D :: Utf8.encode (withCRs (some '\r') behind))) ∧
    ∀ other, encode text = encode other ↔ withCRs none text = withCRs none other := by
  have hnone (t : List Char) : withCRs none t = withMailBreaks t := withCRs_eq_withMailBreaks (by decide) t
  refine ⟨?_, ?_, ?_⟩
  · rw [hnone]
    exact decode?_encode text
  · rintro before behind rfl
    rw [decode?_encode, ← hnone, withCRs_append_cr, Utf8.encode_append]
    rfl
  · intro other
    rw [hnone, hnone]
    exact ⟨withMailBreaks_eq_of_encode_eq, encode_eq_of_withMailBreaks_eq⟩

end SheetPost.Mail.QuotedPrintable
