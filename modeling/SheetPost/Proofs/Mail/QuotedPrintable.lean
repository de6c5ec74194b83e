/-
Quoted-printable read back. The induction is on the bytes of a line, over the lines that its soft breaks make of it: a
token goes to the front of the first written line, and a soft break is a line of its own that stands for no byte. The
reader drops blanks at the end of a written line, but no written line ends in one (`tight_token_append`).

Main statement: the strict reader gives back the bytes of the text with its line breaks written as mail has them
(`decode?_encode`).
-/
import SheetPost.Mail.QuotedPrintable
import SheetPost.Proofs.Mail.Lines
import SheetPost.Text.Percent

namespace SheetPost.Mail.QuotedPrintable

open SheetPost.Text

/-- a text with every line break, LF or CR LF, as CR LF; a CR that breaks no line stays -/
def withMailBreaks : List Char → List Char
  | [] => []
  | '\r' :: '\n' :: r => '\r' :: '\n' :: withMailBreaks r
  | '\n' :: r => '\r' :: '\n' :: withMailBreaks r
  | c :: r => c :: withMailBreaks r

/-! ## Tokens -/

theorem char_of_literal {last : Bool} {b : UInt8} (h : isLiteral last b = true) :
    ∃ c : Char, Char.ofNat b.toNat = c ∧ UInt8.ofNat c.toNat = b ∧ c.toNat < 0x80 ∧ c ≠ '=' ∧ c ≠ '\r' ∧ c ≠ '\n' ∧
      (last = true → c ≠ ' ' ∧ c ≠ '\t') := by
  have key : ∀ n : Fin 127, isLiteral last (UInt8.ofNat n) = true →
      (Char.ofNat n).toNat = n ∧ Char.ofNat n ≠ '=' ∧ Char.ofNat n ≠ '\r' ∧ Char.ofNat n ≠ '\n' ∧
        (last = true → Char.ofNat n ≠ ' ' ∧ Char.ofNat n ≠ '\t') := by
    cases last <;> decide
  have hb : b.toNat < 127 := by
    unfold isLiteral at h
    split at h
    · next hs =>
      rcases Bool.or_eq_true_iff.1 hs with hs | hs <;> rw [beq_iff_eq.1 hs] <;> decide
    · simp only [Bool.and_eq_true, decide_eq_true_eq] at h
      exact Nat.lt_succ_of_le (UInt8.le_iff_toNat_le.1 h.2)
  have hk := key ⟨b.toNat, hb⟩ (by rw [UInt8.ofNat_toNat]; exact h)
  simp only at hk
  refine ⟨Char.ofNat b.toNat, rfl, ?_, ?_, hk.2⟩
  · rw [hk.1, UInt8.ofNat_toNat]
  · rw [hk.1]
    omega

theorem hexDigit_ne {n : Nat} (h : n < 16) : hexDigit n ≠ ' ' ∧ hexDigit n ≠ '\t' ∧ hexDigit n ≠ '\r' := by
  have : ∀ m : Fin 16, hexDigit m ≠ ' ' ∧ hexDigit m ≠ '\t' ∧ hexDigit m ≠ '\r' := by decide
  exact this ⟨n, h⟩

/-- a token stands for its byte -/
theorem decodeLine?_token (last : Bool) (b : UInt8) (s : List Char) :
    decodeLine? (token last b ++ s) = (decodeLine? s).map fun p => (b :: p.1, p.2) := by
  unfold token
  split
  · next h =>
    obtain ⟨c, hc, hb, hlt, hne, -⟩ := char_of_literal h
    rw [hc, List.singleton_append, decodeLine?, hb]
    · simp [hne, Nat.not_le.2 hlt]
    · intro heq
      subst heq
      exact absurd rfl hne
    · intro x y t heq
      subst heq
      exact absurd rfl hne
  · have hb := b.toNat_lt
    have h1 : b.toNat / 16 < 16 := by omega
    have h2 : b.toNat % 16 < 16 := by omega
    have he : UInt8.ofNat (b.toNat / 16 * 16 + b.toNat % 16) = b := by
      rw [show b.toNat / 16 * 16 + b.toNat % 16 = b.toNat by omega, UInt8.ofNat_toNat]
    simp only [hexByte, List.cons_append, List.nil_append, decodeLine?, Percent.digitValue?_hexDigit h1,
      Percent.digitValue?_hexDigit h2]
    cases decodeLine? s with
    | none => rfl
    | some p => simp [he]

theorem cr_not_mem_token (last : Bool) (b : UInt8) : '\r' ∉ token last b := by
  unfold token
  split
  · next h =>
    obtain ⟨c, hc, -, -, -, hr, -⟩ := char_of_literal h
    simpa [hc] using Ne.symm hr
  · have hb := b.toNat_lt
    have h1 := hexDigit_ne (n := b.toNat / 16) (by omega)
    have h2 := hexDigit_ne (n := b.toNat % 16) (by omega)
    simp [hexByte, Ne.symm h1.2.2, Ne.symm h2.2.2]

/-! ## Ends of lines -/

/-- the text ends, and not in a blank -/
def Tight (s : List Char) : Prop := ∃ c, s.getLast? = some c ∧ c ≠ ' ' ∧ c ≠ '\t'

theorem Tight.append {s t : List Char} (h : Tight t) : Tight (s ++ t) := by
  obtain ⟨c, hc, hb⟩ := h
  exact ⟨c, by rw [List.getLast?_append, hc]; rfl, hb⟩

/-- a line without the blanks at its end -/
def strip (s : List Char) : List Char := dropEndWhile (fun c => c == ' ' || c == '\t') s

theorem strip_of_tight {s : List Char} (h : Tight s) : strip s = s := by
  obtain ⟨c, hc, h1, h2⟩ := h
  obtain ⟨r, rfl⟩ := List.getLast?_eq_some_iff.1 hc
  simp [strip, dropEndWhile, h1, h2]

theorem tight_token (b : UInt8) : Tight (token true b) := by
  unfold token
  split
  · next h =>
    obtain ⟨c, hc, -, -, -, -, -, hb⟩ := char_of_literal h
    exact ⟨c, by rw [hc]; rfl, hb rfl⟩
  · have hb := b.toNat_lt
    have h2 := hexDigit_ne (n := b.toNat % 16) (by omega)
    exact ⟨hexDigit (b.toNat % 16), rfl, h2.1, h2.2.1⟩

/-- a soft break is a line of its own -/
theorem splitLines_soft (s : List Char) : splitLines ('=' :: (crlf ++ s)) = ['='] :: splitLines s :=
  splitLines_append_crlf ['='] s

/-- no written line ends in a blank: a token that ends its line is not one, and every other line ends behind a token or
in a soft break -/
theorem tight_token_append (b : UInt8) (width : Nat) (r : List UInt8) :
    ∃ l ls, splitLines (encodeLineFrom width r) = l :: ls ∧ (l = [] ∨ Tight l) ∧ Tight (token r.isEmpty b ++ l) := by
  induction r generalizing b width with
  | nil =>
    refine ⟨[], [], rfl, .inl rfl, ?_⟩
    rw [List.append_nil]
    exact tight_token b
  | cons d r ih =>
    have hfirst {l : List Char} (h : Tight l) : (l = [] ∨ Tight l) ∧ Tight (token (d :: r).isEmpty b ++ l) :=
      ⟨.inr h, h.append⟩
    unfold encodeLineFrom
    dsimp only
    split
    · exact ⟨['='], _, splitLines_soft _, hfirst ⟨'=', rfl, by decide⟩⟩
    · obtain ⟨l, ls, hs, -, ht⟩ := ih d (width + (token r.isEmpty d).length)
      exact ⟨_, ls, splitLines_append (cr_not_mem_token _ d) hs, hfirst ht⟩

/-! ## Lines -/

/-- what the reader makes of the lines that follow one which ends in a line break of the text -/
def follow : List (List Char) → Option (List UInt8)
  | [] => some []
  | line :: lines => (decodeLines? (line :: lines)).map (0x0D :: 0x0A :: ·)

theorem decodeLines?_of_hard {l : List Char} {bytes : List UInt8} (h : decodeLine? (strip l) = some (bytes, false))
    (rest : List (List Char)) : decodeLines? (l :: rest) = (follow rest).map (bytes ++ ·) := by
  unfold strip at h
  cases rest with
  | nil => simp [decodeLines?, follow, h]
  | cons next lines =>
    rw [decodeLines?, follow, h]
    cases decodeLines? (next :: lines) <;> rfl

theorem decodeLines?_soft (next : List Char) (lines : List (List Char)) :
    decodeLines? (['='] :: next :: lines) = decodeLines? (next :: lines) := by
  rw [decodeLines?]
  have : decodeLine? (dropEndWhile (fun c => c == ' ' || c == '\t') ['=']) = some ([], true) := by decide
  rw [this]
  cases decodeLines? (next :: lines) <;> rfl

/-- a token in front of the first line stands for its byte in front of the others -/
theorem decodeLines?_token {last : Bool} {b : UInt8} {l : List Char}
    (h : strip (token last b ++ l) = token last b ++ strip l) (lines : List (List Char)) :
    decodeLines? ((token last b ++ l) :: lines) = (decodeLines? (l :: lines)).map (b :: ·) := by
  have hl := decodeLine?_token last b (strip l)
  rw [← h] at hl
  unfold strip at hl
  cases lines with
  | nil =>
    rw [decodeLines?, decodeLines?, hl]
    rcases decodeLine? (dropEndWhile (fun c => c == ' ' || c == '\t') l) with _ | ⟨bytes, _ | _⟩ <;> rfl
  | cons next lines =>
    rw [decodeLines?, decodeLines?, hl]
    rcases decodeLine? (dropEndWhile (fun c => c == ' ' || c == '\t') l) with _ | ⟨bytes, _ | _⟩ <;>
      cases decodeLines? (next :: lines) <;> rfl

/-- the written lines of a line of text stand for its bytes -/
theorem decodeLines?_encodeLineFrom (width : Nat) (bytes : List UInt8) (rest : List (List Char)) :
    decodeLines? (splitLines (encodeLineFrom width bytes) ++ rest) = (follow rest).map (bytes ++ ·) := by
  induction bytes generalizing width with
  | nil => exact decodeLines?_of_hard (l := []) rfl rest
  | cons b r ih =>
    have step (w : Nat) : decodeLines? (splitLines (token r.isEmpty b ++ encodeLineFrom w r) ++ rest) =
        (follow rest).map (b :: r ++ ·) := by
      obtain ⟨l, ls, hs, hl, ht⟩ := tight_token_append b w r
      have hstrip : strip (token r.isEmpty b ++ l) = token r.isEmpty b ++ strip l := by
        rw [strip_of_tight ht]
        rcases hl with rfl | hl
        · rfl
        · rw [strip_of_tight hl]
      have ih := ih w
      rw [hs, List.cons_append] at ih
      rw [splitLines_append (cr_not_mem_token _ b) hs, List.cons_append, decodeLines?_token hstrip, ih, Option.map_map]
      rfl
    unfold encodeLineFrom
    dsimp only
    split
    · rw [splitLines_soft, List.cons_append, ← step]
      cases hs : splitLines (token r.isEmpty b ++ encodeLineFrom (token r.isEmpty b).length r) with
      | nil => exact absurd hs (splitLines_ne_nil _)
      | cons next lines => exact decodeLines?_soft next (lines ++ rest)
    · exact step _

/-! ## Texts -/

theorem decodeLines?_lines (l : List Char) (ls : List (List Char)) :
    decodeLines? ((l :: ls).flatMap fun line => splitLines (encodeLine line)) =
      some (Utf8.encode (joinLines (l :: ls))) := by
  induction ls generalizing l with
  | nil =>
    have := decodeLines?_encodeLineFrom 0 (Utf8.encode l) []
    simpa [encodeLine, joinLines, join, follow] using this
  | cons m ls ih =>
    have hj : joinLines (l :: m :: ls) = l ++ (crlf ++ joinLines (m :: ls)) := by simp [joinLines, join]
    rw [List.flatMap_cons, encodeLine, decodeLines?_encodeLineFrom, hj, Utf8.encode_append, Utf8.encode_append]
    have ih := ih m
    cases hs : (m :: ls).flatMap fun line => splitLines (encodeLine line) with
    | nil => exact absurd (List.append_eq_nil_iff.1 hs).1 (splitLines_ne_nil _)
    | cons next lines =>
      rw [hs] at ih
      rw [follow, ih]
      rfl

theorem linesOf_ne_nil (text : List Char) : linesOf text ≠ [] := by
  cases hs : split (· == '\n') text with
  | nil => exact absurd hs (split_ne_nil _ _)
  | cons piece pieces => simp [linesOf, hs, List.getLast?_cons]

theorem dropCR_cons {c : Char} {piece : List Char} (h : c = '\r' → piece ≠ []) :
    dropCR (c :: piece) = c :: dropCR piece := by
  cases piece with
  | nil =>
    have hc : c ≠ '\r' := fun hc => h hc rfl
    simp [dropCR, hc]
  | cons d piece => simp only [dropCR, List.getLast?_cons_cons, List.dropLast_cons_cons]; split <;> rfl

theorem linesOf_of_split {s piece : List Char} {pieces : List (List Char)} (h : split (· == '\n') s = piece :: pieces)
    (hp : pieces ≠ []) : linesOf s = dropCR piece :: (pieces.dropLast.map dropCR ++ pieces.getLast?.toList) := by
  cases pieces with
  | nil => exact absurd rfl hp
  | cons q qs => simp [linesOf, h, List.getLast?_cons_cons]

theorem linesOf_lf (r : List Char) : linesOf ('\n' :: r) = [] :: linesOf r :=
  linesOf_of_split (s := '\n' :: r) rfl (split_ne_nil _ r)

theorem linesOf_crlf (r : List Char) : linesOf ('\r' :: '\n' :: r) = [] :: linesOf r :=
  linesOf_of_split (s := '\r' :: '\n' :: r) rfl (split_ne_nil _ r)

theorem linesOf_cons {c : Char} {r l : List Char} {ls : List (List Char)} (hn : c ≠ '\n')
    (hr : ∀ t, c = '\r' → r ≠ '\n' :: t) (h : linesOf r = l :: ls) : linesOf (c :: r) = (c :: l) :: ls := by
  cases hs : split (· == '\n') r with
  | nil => exact absurd hs (split_ne_nil _ r)
  | cons piece pieces =>
    have hc : split (· == '\n') (c :: r) = (c :: piece) :: pieces := split_cons (by simpa using hn) hs
    cases pieces with
    | nil =>
      have hone {s p : List Char} (hp : split (· == '\n') s = [p]) : linesOf s = [p] := by simp [linesOf, hp]
      rw [hone hs, List.cons.injEq] at h
      rw [hone hc, h.1, h.2]
    | cons q qs =>
      have hpiece : c = '\r' → piece ≠ [] := by
        intro hcr heq
        subst heq
        cases r with
        | nil => simp [split] at hs
        | cons d r =>
          by_cases hd : d = '\n'
          · exact hr r hcr (by rw [hd])
          · cases hs' : split (· == '\n') r with
            | nil => exact split_ne_nil _ r hs'
            | cons a b =>
              rw [split_cons (by simpa using hd) hs'] at hs
              cases hs
      rw [linesOf_of_split hs (by simp), List.cons.injEq] at h
      rw [linesOf_of_split hc (by simp), dropCR_cons hpiece, h.1, h.2]

/-- the lines of a text with mail's breaks between them are the text with mail's breaks -/
theorem joinLines_linesOf (text : List Char) : joinLines (linesOf text) = withMailBreaks text := by
  have hnil (ls : List (List Char)) (h : ls ≠ []) : joinLines ([] :: ls) = '\r' :: '\n' :: joinLines ls := by
    cases ls with
    | nil => exact absurd rfl h
    | cons l ls => rfl
  fun_induction withMailBreaks text with
  | case1 => rfl
  | case2 r ih => rw [linesOf_crlf, hnil _ (linesOf_ne_nil r), ih]
  | case3 r ih => rw [linesOf_lf, hnil _ (linesOf_ne_nil r), ih]
  | case4 c r hcr hn ih =>
    cases hl : linesOf r with
    | nil => exact absurd hl (linesOf_ne_nil r)
    | cons l ls =>
      rw [linesOf_cons hn (fun t h1 h2 => hcr t h1 h2) hl, joinLines, join_cons_head, ← hl]
      exact congrArg (c :: ·) ih

theorem splitLines_encode (text : List Char) :
    splitLines (encode text) = (linesOf text).flatMap fun line => splitLines (encodeLine line) := by
  rw [encode]
  cases hl : linesOf text with
  | nil => exact absurd hl (linesOf_ne_nil text)
  | cons l ls => rw [List.map_cons, splitLines_joinLines, ← List.map_cons, List.flatMap_map]

/-- **A text is read back with its line breaks as mail has them** -/
theorem decode?_encode (text : List Char) : decode? (encode text) = some (Utf8.encode (withMailBreaks text)) := by
  rw [decode?, splitLines_encode, ← joinLines_linesOf]
  cases hl : linesOf text with
  | nil => exact absurd hl (linesOf_ne_nil text)
  | cons l ls => exact decodeLines?_lines l ls

end SheetPost.Mail.QuotedPrintable
