/-
The words of a text: what is left of it between blanks.

Main statements: a text is its words with blanks between and around them (`spaced_words`), and blanks at its ends do not
count (`words_trim`).
-/
import Mathlib.Data.List.TakeWhile
import SheetPost.Proofs.Text.Trim

namespace SheetPost.Text

/-! ## Words of a text in parts -/

theorem split_append_sep (p : Char → Bool) {c : Char} (hc : p c = true) (s r : List Char) :
    split p (s ++ c :: r) = split p s ++ split p r := by
  induction s with
  | nil => simp [split, hc]
  | cons d s ih =>
    rw [List.cons_append, split, split, ih]
    cases hs : split p s with
    | nil => exact absurd hs (split_ne_nil p s)
    | cons piece pieces => cases p d <;> rfl

theorem split_of_none {p : Char → Bool} {s : List Char} (h : ∀ c ∈ s, p c = false) : split p s = [s] := by
  induction s with
  | nil => rfl
  | cons c s ih =>
    rw [split, h c List.mem_cons_self, ih fun d hd => h d (List.mem_cons_of_mem _ hd)]

/-- cutting undoes joining where the separator is in none of the pieces -/
theorem split_join {x : Char} {ts : List (List Char)} (hne : ts ≠ []) (h : ∀ t ∈ ts, x ∉ t) :
    split (· == x) (join [x] ts) = ts := by
  have hnone {t : List Char} (ht : x ∉ t) : split (· == x) t = [t] :=
    split_of_none fun c hc => by simpa using fun e : c = x => ht (e ▸ hc)
  induction ts with
  | nil => exact absurd rfl hne
  | cons t ts ih =>
    have ht := hnone (h t List.mem_cons_self)
    cases ts with
    | nil => exact ht
    | cons t' ts =>
      rw [join, List.append_assoc, List.singleton_append, split_append_sep _ (by simp), ht,
        ih (List.cons_ne_nil _ _) fun t hmem => h t (List.mem_cons_of_mem _ hmem)]
      rfl

theorem words_append_blank {c : Char} (hc : isBlank c = true) (s r : List Char) :
    words (s ++ c :: r) = words s ++ words r := by
  rw [words, split_append_sep isBlank hc, List.filter_append, words, words]

theorem words_blank_cons {c : Char} (hc : isBlank c = true) (r : List Char) : words (c :: r) = words r :=
  words_append_blank hc [] r

theorem words_of_not_blank {w : List Char} (hw : w ≠ []) (h : ∀ c ∈ w, isBlank c = false) : words w = [w] := by
  simp [words, split_of_none h, hw]

theorem words_blanks_append {b : List Char} (hb : ∀ c ∈ b, isBlank c = true) (s : List Char) :
    words (b ++ s) = words s := by
  induction b with
  | nil => rfl
  | cons c b ih =>
    rw [List.cons_append, words_blank_cons (hb c List.mem_cons_self), ih fun d hd => hb d (List.mem_cons_of_mem _ hd)]

theorem words_append_blanks {b : List Char} (hb : ∀ c ∈ b, isBlank c = true) (s : List Char) :
    words (s ++ b) = words s := by
  cases b with
  | nil => rw [List.append_nil]
  | cons c b =>
    have hnil : words b = [] := by
      have := words_blanks_append (fun d hd => hb d (List.mem_cons_of_mem _ hd)) []
      rwa [List.append_nil] at this
    rw [words_append_blank (hb c List.mem_cons_self), hnil, List.append_nil]

theorem words_trim (s : List Char) : words (trim s) = words s := by
  obtain ⟨a, b, hs, ha, hb⟩ := exists_trimWhile isBlank s
  calc words (trim s) = words (a ++ (trim s ++ b)) := by rw [words_blanks_append ha, words_append_blanks hb]
    _ = words s := by rw [trim, ← hs]

/-- words with a blank between one and the next are the words of the text -/
theorem words_join {c : Char} (hc : isBlank c = true) {ws : List (List Char)}
    (hws : ∀ w ∈ ws, w ≠ [] ∧ ∀ d ∈ w, isBlank d = false) : words (join [c] ws) = ws := by
  induction ws with
  | nil => rfl
  | cons w ws ih =>
    have hw := words_of_not_blank (hws w List.mem_cons_self).1 (hws w List.mem_cons_self).2
    cases ws with
    | nil => exact hw
    | cons v ws =>
      rw [join, List.append_assoc, List.singleton_append, words_append_blank hc, hw,
        ih fun u hu => hws u (List.mem_cons_of_mem w hu)]
      rfl

/-! ## Words and blanks -/

/-- a text made of words with characters that satisfy `p` between them, and perhaps around them -/
inductive Spaced (p : Char → Bool) : List (List Char) → List Char → Prop where
  | nil {b} : (∀ c ∈ b, p c = true) → Spaced p [] b
  | word {b t ts s} : (∀ c ∈ b, p c = true) → (∀ c, s.head? = some c → p c = true) → Spaced p ts s →
    Spaced p (t :: ts) (b ++ (t ++ s))

namespace Spaced

variable {p : Char → Bool} {ts : List (List Char)} {s : List Char}

theorem cons {c : Char} (hc : p c = true) (h : Spaced p ts s) : Spaced p ts (c :: s) := by
  cases h with
  | nil hb => exact .nil (List.forall_mem_cons.2 ⟨hc, hb⟩)
  | @word b t ts s hb hs h => exact .word (b := c :: b) (List.forall_mem_cons.2 ⟨hc, hb⟩) hs h

/-- the characters between the words may be taken to satisfy another condition that they satisfy as well -/
theorem imp {q : Char → Bool} (h : Spaced p ts s) (hq : ∀ c ∈ s, p c = true → q c = true) : Spaced q ts s := by
  induction h with
  | nil hb => exact .nil fun c hc => hq c hc (hb c hc)
  | @word b t ts s hb hs _ ih =>
    refine .word (fun c hc => hq c (by simp [hc]) (hb c hc)) (fun c hc => ?_) (ih fun c hc => hq c (by simp [hc]))
    exact hq c (by simp [List.mem_of_head? hc]) (hs c hc)

theorem join {c : Char} (hc : p c = true) (ts : List (List Char)) : Spaced p ts (join [c] ts) := by
  induction ts with
  | nil => exact .nil fun _ h => by cases h
  | cons t ts ih =>
    have hnone : ∀ d ∈ ([] : List Char), p d = true := fun _ h => by cases h
    cases ts with
    | nil =>
      have := Spaced.word (t := t) hnone (fun _ h => by cases h) (.nil hnone)
      rwa [List.nil_append, List.append_nil] at this
    | cons t' ts =>
      have := Spaced.word (t := t) hnone (s := c :: Text.join [c] (t' :: ts)) (fun d hd => by cases hd; exact hc)
        (ih.cons hc)
      rw [List.nil_append] at this
      rw [Text.join, List.append_assoc]
      exact this

end Spaced

/-- **A text is its words with blanks between and around them** -/
theorem spaced_words (s : List Char) : Spaced isBlank (words s) s := by
  induction hn : s.length using Nat.strongRecOn generalizing s with
  | _ n ih =>
    subst hn
    have hw : ∀ c ∈ s.takeWhile (!isBlank ·), isBlank c = false := by
      intro c hc
      simpa using List.mem_takeWhile_imp hc
    have hs : s.takeWhile (!isBlank ·) ++ s.dropWhile (!isBlank ·) = s := List.takeWhile_append_dropWhile
    have hhead := List.head?_dropWhile_not (!isBlank ·) s
    generalize s.takeWhile (!isBlank ·) = w at hw hs
    generalize s.dropWhile (!isBlank ·) = rest at hs hhead
    subst hs
    have hnone : ∀ c ∈ ([] : List Char), isBlank c = true := fun _ h => by cases h
    -- the rest begins with a blank, and behind it there are the words of a shorter text
    have hrest : Spaced isBlank (words rest) rest ∧ words (w ++ rest) = words w ++ words rest := by
      cases rest with
      | nil => exact ⟨.nil hnone, by simp [words, split]⟩
      | cons c r =>
        have hc : isBlank c = true := by simpa using hhead
        rw [words_append_blank hc, words_blank_cons hc]
        exact ⟨(ih r.length (by simp only [List.length_append, List.length_cons]; omega) r rfl).cons hc, rfl⟩
    rw [hrest.2]
    by_cases hne : w = []
    · subst hne
      exact hrest.1
    · rw [words_of_not_blank hne hw]
      refine .word hnone (fun c hc => ?_) hrest.1
      rw [hc] at hhead
      simpa using hhead

end SheetPost.Text
