/-
Lines of mail, put together and taken apart: a line break in the middle splits a text into the lines before it and the
lines behind it, whatever stands around it. A carriage return alone never makes a line.

A header value is continued (`Continued`) if every line of it but the first begins with a blank, and taking the breaks
away gives the value that was meant (`unfolded`). What the encoders write is folded (`Folded`): it has no line breaks but
those in front of a space.
-/
import Mathlib.Data.List.Basic
import SheetPost.Mail.Lines
import SheetPost.Proofs.Text.Search

namespace SheetPost.Mail

open SheetPost.Text

/-! ## Splitting -/

theorem splitLines_append_crlf (a s : List Char) : splitLines (a ++ (crlf ++ s)) = splitLines a ++ splitLines s := by
  fun_induction splitLines a with
  | case1 => rfl
  | case2 r ih =>
    rw [List.cons_append, List.cons_append, splitLines, ih, List.cons_append]
  | case3 c r _ hs _ => exact absurd hs (splitLines_ne_nil r)
  | case4 c r hc line lines hs ih =>
    have hnot : c = '\r' → ∀ t, r ++ (crlf ++ s) ≠ '\n' :: t := by
      intro heq t ht
      subst heq
      cases r with
      | nil => simp [crlf] at ht
      | cons d r =>
        simp only [List.cons_append, List.cons.injEq] at ht
        exact hc r rfl (by rw [ht.1])
    rw [hs, List.cons_append] at ih
    rw [List.cons_append, splitLines, ih, List.cons_append]
    intro t h1 h2
    exact hnot h1 t h2

/-- a beginning without carriage returns goes to the first line -/
theorem splitLines_append {p s l : List Char} {ls : List (List Char)} (hp : '\r' ∉ p) (hs : splitLines s = l :: ls) :
    splitLines (p ++ s) = (p ++ l) :: ls := by
  induction p with
  | nil => exact hs
  | cons c p ih =>
    rw [List.mem_cons, not_or] at hp
    rw [List.cons_append, splitLines, ih hp.2, List.cons_append]
    intro t h _
    exact hp.1 h.symm

theorem splitLines_of_not_mem {s : List Char} (h : '\r' ∉ s) : splitLines s = [s] := by
  have := splitLines_append (s := []) h rfl
  simpa using this

/-- the lines of texts with line breaks between them are the lines of the texts -/
theorem splitLines_joinLines (t : List Char) (ts : List (List Char)) :
    splitLines (joinLines (t :: ts)) = (t :: ts).flatMap splitLines := by
  induction ts generalizing t with
  | nil => simp [joinLines, join]
  | cons u ts ih =>
    have hj : joinLines (t :: u :: ts) = t ++ (crlf ++ joinLines (u :: ts)) := by simp [joinLines, join]
    rw [hj, splitLines_append_crlf, ih]
    rfl

/-- a line stands in its text -/
theorem infix_of_mem_splitLines {s l : List Char} (h : l ∈ splitLines s) : l <:+: s := by
  have := @infix_join crlf l _ h
  rwa [← joinLines, joinLines_splitLines] at this

/-- what follows a line break begins a line that is not the first -/
theorem exists_line_of_crlf {d s : List Char} (hd : '\r' ∉ d) (h : crlf ++ d <:+: s) :
    ∃ l ∈ (splitLines s).tail, d <+: l := by
  obtain ⟨a, b, rfl⟩ := h
  cases hb : splitLines b with
  | nil => exact absurd hb (splitLines_ne_nil b)
  | cons l ls =>
    have hs : splitLines (a ++ (crlf ++ d) ++ b) = splitLines a ++ ((d ++ l) :: ls) := by
      rw [List.append_assoc, List.append_assoc, splitLines_append_crlf, splitLines_append hd hb]
    refine ⟨d ++ l, ?_, List.prefix_append d l⟩
    rw [hs, List.tail_append_of_ne_nil (splitLines_ne_nil a)]
    simp

/-- a line is one line -/
theorem splitLines_of_mem_splitLines {s l : List Char} (h : l ∈ splitLines s) : splitLines l = [l] := by
  fun_induction splitLines s generalizing l with
  | case1 =>
    rw [List.mem_singleton.1 h]
    rfl
  | case2 r ih =>
    rcases List.mem_cons.1 h with rfl | h
    · rfl
    · exact ih h
  | case3 c r _ hs _ => exact absurd hs (splitLines_ne_nil r)
  | case4 c r hc line lines hs ih =>
    rw [hs] at ih
    rcases List.mem_cons.1 h with rfl | h
    · have hr : r = joinLines (line :: lines) := by rw [← hs, joinLines_splitLines]
      rw [splitLines, ih List.mem_cons_self]
      -- a line break over the end of the character would be one of the text
      intro t h1 h2
      refine hc (t ++ joinLines ([] :: lines)) h1 ?_
      rw [hr, h2]
      cases lines <;> simp [joinLines, join]
    · exact ih (List.mem_cons_of_mem line h)

/-- a text whose lines are these lines and others behind them begins with these lines -/
theorem splitLines_joinLines_of_append {s first : List Char} {lines more : List (List Char)}
    (h : splitLines s = first :: lines ++ more) : splitLines (joinLines (first :: lines)) = first :: lines := by
  have hone : ∀ l ∈ first :: lines, splitLines l = [l] := by
    intro l hl
    refine splitLines_of_mem_splitLines (s := s) ?_
    rw [h]
    exact List.mem_append_left more hl
  rw [splitLines_joinLines, List.flatMap_congr hone, List.flatMap_singleton']

/-! ## Folds -/

/-- a line that goes on with the one before it -/
def goesOn (line : List Char) : Bool := line.head?.any fun c => c == ' ' || c == '\t'

/-- every line of the text but the first goes on with the one before it -/
def Continued (s : List Char) : Prop := ∀ l ∈ (splitLines s).tail, goesOn l = true

instance (s : List Char) : Decidable (Continued s) := inferInstanceAs (Decidable (∀ l ∈ (splitLines s).tail, _))

theorem hasBreak_eq_false_iff {s : List Char} : hasBreak s = false ↔ ∀ c ∈ s, c ≠ '\r' ∧ c ≠ '\n' := by
  simp [hasBreak]

/-- a text without line breaks is one line -/
theorem splitLines_of_hasBreak {s : List Char} (h : hasBreak s = false) : splitLines s = [s] :=
  splitLines_of_not_mem fun hc => (hasBreak_eq_false_iff.1 h '\r' hc).1 rfl

theorem isAscii_append (s t : List Char) : isAscii (s ++ t) = (isAscii s && isAscii t) := List.all_append

theorem isAscii_cons (c : Char) (s : List Char) : isAscii (c :: s) = (decide (c.toNat < 0x80) && isAscii s) :=
  List.all_cons

theorem isAscii_iff {s : List Char} : isAscii s = true ↔ ∀ c ∈ s, c.toNat < 0x80 := by
  simp [isAscii]

/-- every line break of the text stands before a space -/
inductive Folded : List Char → Prop where
  | nil : Folded []
  | char {c : Char} {s : List Char} : c ≠ '\r' → c ≠ '\n' → Folded s → Folded (c :: s)
  | fold {s : List Char} : Folded s → Folded ('\r' :: '\n' :: ' ' :: s)

/-- a text without its line breaks -/
def unfolded (s : List Char) : List Char := (splitLines s).flatten

theorem folded_of_hasBreak {s : List Char} (h : hasBreak s = false) : Folded s := by
  rw [hasBreak_eq_false_iff] at h
  induction s with
  | nil => exact .nil
  | cons c s ih =>
    obtain ⟨hr, hn⟩ := h c List.mem_cons_self
    exact .char hr hn (ih fun d hd => h d (List.mem_cons_of_mem c hd))

theorem Folded.append {s t : List Char} (hs : Folded s) (ht : Folded t) : Folded (s ++ t) := by
  induction hs with
  | nil => exact ht
  | char hr hn _ ih => exact .char hr hn ih
  | fold _ ih => exact .fold ih

theorem Folded.join {sep : List Char} {ts : List (List Char)} (hsep : Folded sep) (h : ∀ t ∈ ts, Folded t) :
    Folded (join sep ts) := by
  induction ts with
  | nil => exact .nil
  | cons t ts ih =>
    cases ts with
    | nil => exact h t List.mem_cons_self
    | cons u ts =>
      refine ((h t List.mem_cons_self).append hsep).append (ih fun v hv => h v (List.mem_cons_of_mem t hv))

/-- of a folded text only the characters of its line breaks are taken away -/
theorem Folded.unfolded_eq {s : List Char} (h : Folded s) : unfolded s = s.filter fun c => c != '\r' && c != '\n' := by
  have hcons {c : Char} (hc : c ≠ '\r') (s : List Char) : unfolded (c :: s) = c :: unfolded s := by
    cases hs : splitLines s with
    | nil => exact absurd hs (splitLines_ne_nil s)
    | cons l ls =>
      have := splitLines_append (p := [c]) (by simpa using hc.symm) hs
      rw [List.singleton_append] at this
      rw [unfolded, unfolded, this, hs]
      rfl
  induction h with
  | nil => rfl
  | char hr hn _ ih => rw [hcons hr, ih, List.filter_cons_of_pos (by simp [hr, hn])]
  | @fold s _ ih =>
    have hline : unfolded ('\r' :: '\n' :: ' ' :: s) = unfolded (' ' :: s) := rfl
    rw [hline, hcons (by decide), ih, List.filter_cons_of_neg (by decide), List.filter_cons_of_neg (by decide),
      List.filter_cons_of_pos (by decide)]

theorem Folded.hasBreak_unfolded {s : List Char} (h : Folded s) : hasBreak (unfolded s) = false := by
  rw [h.unfolded_eq, hasBreak_eq_false_iff]
  intro c hc
  simpa using (List.mem_filter.1 hc).2

theorem Folded.unfolded_append {s t : List Char} (hs : Folded s) (ht : Folded t) :
    unfolded (s ++ t) = unfolded s ++ unfolded t := by
  rw [(hs.append ht).unfolded_eq, hs.unfolded_eq, ht.unfolded_eq, List.filter_append]

theorem unfolded_join {sep : List Char} {ts : List (List Char)} (hsep : Folded sep) (h : ∀ t ∈ ts, Folded t) :
    unfolded (join sep ts) = join (unfolded sep) (ts.map unfolded) := by
  induction ts with
  | nil => rfl
  | cons t ts ih =>
    rw [List.forall_mem_cons] at h
    cases ts with
    | nil => rfl
    | cons u ts =>
      have hrest := Folded.join hsep h.2
      rw [join, (h.1.append hsep).unfolded_append hrest, h.1.unfolded_append hsep, ih h.2]
      rfl

theorem unfolded_of_hasBreak {s : List Char} (h : hasBreak s = false) : unfolded s = s := by
  rw [unfolded, splitLines_of_hasBreak h]
  simp

theorem Folded.continued {s : List Char} (h : Folded s) : Continued s := by
  unfold Continued
  induction h with
  | nil => simp [splitLines]
  | @char c s hr _ _ ih =>
    cases hs : splitLines s with
    | nil => exact absurd hs (splitLines_ne_nil s)
    | cons l ls =>
      have := splitLines_append (p := [c]) (by simpa using Ne.symm hr) hs
      rw [List.singleton_append] at this
      rw [this]
      simpa [hs] using ih
  | @fold s _ ih =>
    cases hs : splitLines s with
    | nil => exact absurd hs (splitLines_ne_nil s)
    | cons l ls =>
      have := splitLines_append (p := [' ']) (by decide) hs
      rw [List.singleton_append] at this
      rw [splitLines, this]
      rw [hs] at ih
      intro k hk
      rcases List.mem_cons.1 hk with rfl | hk
      · rfl
      · exact ih k hk

end SheetPost.Mail
