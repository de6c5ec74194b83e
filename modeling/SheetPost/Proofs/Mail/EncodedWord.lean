/-
Encoded words. A text is cut between characters into pieces of at most 45 bytes, as many characters to a piece as fit,
and each piece becomes a word by itself; 45 bytes are 60 digits, which leaves a word below 75 characters.

Main statement: the words of a header value, and the text that is read back from them (`encode_words`).
-/
import SheetPost.Mail.EncodedWord
import SheetPost.Proofs.Mail.HeaderValue
import SheetPost.Proofs.Text.Utf8
import SheetPost.Proofs.Text.Words

namespace SheetPost.Mail.EncodedWord

open SheetPost.Text

/-- a word as headers have it: UTF-8 in base64, and no more than 75 characters with what stands around -/
structure IsWord (w : List Char) : Prop where
  framed : ∃ digits, w = "=?utf-8?B?".toList ++ digits ++ "?=".toList ∧ ∀ c ∈ digits, Base64.IsDigit c
  length_le : w.length ≤ 75

/-- a piece of a text that a word has room for -/
structure IsPiece (t : List Char) : Prop where
  ne_nil : t ≠ []
  length_le : Utf8.length t ≤ capacity

/-! ## Pieces -/

/-- a character has room in a piece of its own -/
theorem isPiece_singleton (c : Char) : IsPiece [c] where
  ne_nil := List.cons_ne_nil c []
  length_le := by
    rw [Utf8.length_singleton]
    exact Nat.le_trans c.utf8Size_le_four (by decide)

theorem flatten_piecesFrom (taken s : List Char) : (piecesFrom taken s).flatten = taken ++ s := by
  fun_induction piecesFrom taken s with
  | case1 taken h => rw [List.isEmpty_iff.1 h]; rfl
  | case2 taken h => simp
  | case3 taken c r h ih => rw [List.flatten_cons, ih]; rfl
  | case4 taken c r h ih => rw [ih, List.append_assoc]; rfl

/-- what was taken stays within the room, and it is given up only when it is something -/
theorem isPiece_of_mem_piecesFrom {taken s : List Char} (h : Utf8.length taken ≤ capacity) :
    ∀ t ∈ piecesFrom taken s, IsPiece t := by
  fun_induction piecesFrom taken s with
  | case1 taken he => simp
  | case2 taken he =>
    intro t ht
    rw [List.mem_singleton.1 ht]
    exact ⟨by simpa using he, h⟩
  | case3 taken c r hfull ih =>
    have hne : taken ≠ [] := by
      rintro rfl
      have := c.utf8Size_le_four
      simp only [Utf8.length, List.foldl_nil, capacity] at hfull
      omega
    exact List.forall_mem_cons.2 ⟨⟨hne, h⟩, ih (isPiece_singleton c).length_le⟩
  | case4 taken c r hfits ih =>
    apply ih
    rw [Utf8.length_append, Utf8.length_singleton]
    exact Nat.le_of_not_lt hfits

theorem flatten_pieces (s : List Char) : (pieces s).flatten = s := flatten_piecesFrom [] s

theorem isPiece_of_mem_pieces {s : List Char} : ∀ t ∈ pieces s, IsPiece t :=
  isPiece_of_mem_piecesFrom (Nat.zero_le capacity)

/-! ## Words -/

/-- the frame of a word, and four digits for every three bytes that are begun -/
theorem length_word (t : List Char) : (word t).length = 12 + (Utf8.length t + 2) / 3 * 4 := by
  have hframe : opening.length = 10 ∧ closing.length = 2 := by decide
  rw [word, List.length_append, List.length_append, Base64.length_encode, Utf8.length_encode, hframe.1, hframe.2]
  omega

theorem IsPiece.isWord {t : List Char} (h : IsPiece t) : IsWord (word t) where
  framed := ⟨Base64.encode (Utf8.encode t), by rw [List.append_assoc]; rfl, Base64.isDigit_of_mem_encode⟩
  length_le := by
    have hle := h.length_le
    rw [length_word]
    unfold capacity at hle
    omega

/-- a piece is read back from its word alone -/
theorem decodeWord?_word (t : List Char) : decodeWord? (word t) = some t := by
  have hclosing (digits : List Char) :
      after? closing.reverse (digits ++ closing).reverse = some digits.reverse := by
    rw [List.reverse_append, after?_append]
  simp only [decodeWord?, word, after?_append, hclosing]
  rw [List.reverse_reverse, Base64.decode?_encode, Option.bind_some, Utf8.decode?_encode]

theorem mapM_decodeWord? (ts : List (List Char)) : (ts.map word).mapM decodeWord? = some ts := by
  induction ts with
  | nil => rfl
  | cons t ts ih => simp [decodeWord?_word, ih]

/-! ## Words in lines -/

/-- the lines of folded words: every word but the first begins with the blank of its fold -/
theorem splitLines_join (t : List Char) (ts : List (List Char)) :
    splitLines (join fold ((t :: ts).map word)) = word t :: ts.map fun u => ' ' :: word u := by
  induction ts generalizing t with
  | nil => exact splitLines_of_hasBreak (hasBreak_word t)
  | cons u ts ih =>
    have hjoin : join fold ((t :: u :: ts).map word) =
        word t ++ (crlf ++ ([' '] ++ join fold ((u :: ts).map word))) := by
      simp [join, fold]
    rw [hjoin, splitLines_append_crlf, splitLines_of_hasBreak (hasBreak_word t), splitLines_append (by decide) (ih u)]
    rfl

/-- the words of all lines are read back with their folds -/
theorem decodeWords?_join (t : List Char) (ts : List (List Char)) :
    decodeWords? (join fold ((t :: ts).map word)) = some (t :: ts).flatten := by
  have hfolded (k : Nat) : ((ts.map fun u => ' ' :: word u).zipIdx (k + 1)).mapM
      (fun (line, i) => if i = 0 then decodeWord? line else (after? [' '] line).bind decodeWord?) = some ts := by
    induction ts generalizing k with
    | nil => rfl
    | cons u ts ih =>
      have hblank : after? [' '] (' ' :: word u) = some (word u) := after?_append [' '] (word u)
      simp [hblank, decodeWord?_word, ih]
  rw [decodeWords?, splitLines_join]
  simp [decodeWord?_word, hfolded 0]

/-! ## Unfolded words -/

/-- what holds of the frame of a word and of every digit holds of all characters of a word -/
theorem forall_mem_word {p : Char → Bool} (hframe : (opening ++ closing).all p = true)
    (hdigit : ∀ n : Fin 64, p (Base64.digit n) = true) {t : List Char} : ∀ c ∈ word t, p c = true := by
  rw [List.all_eq_true] at hframe
  intro c hc
  rw [word, List.mem_append, List.mem_append] at hc
  rcases hc with hc | hc | hc
  · exact hframe c (List.mem_append_left _ hc)
  · rcases Base64.isDigit_of_mem_encode c hc with rfl | ⟨n, hn, rfl⟩
    · exact hframe '=' (by decide)
    · exact hdigit ⟨n, hn⟩
  · exact hframe c (List.mem_append_right _ hc)

theorem word_ne_nil (t : List Char) : word t ≠ [] := List.append_ne_nil_of_left_ne_nil (by decide) _

/-- without its line breaks a value beyond ASCII is its words with a blank between one and the next -/
theorem unfolded_encode {s : List Char} (h : isAscii s = false) :
    unfolded (encode s) = join [' '] ((pieces s).map word) := by
  have hencode : encode s = join fold ((pieces s).map word) := by rw [encode, h, if_neg Bool.false_ne_true]
  rw [hencode]
  cases pieces s with
  | nil => rfl
  | cons t ts =>
    rw [unfolded, splitLines_join]
    induction ts generalizing t with
    | nil => simp [join]
    | cons u ts ih =>
      have := ih u
      simp only [List.map_cons, List.flatten_cons, join] at this ⊢
      rw [← this]
      simp

/-- an unfolded value beyond ASCII begins as words do -/
theorem head?_unfolded_encode {s : List Char} (h : isAscii s = false) : (unfolded (encode s)).head? = some '=' := by
  have hword (t : List Char) : ∃ r, word t = '=' :: r := ⟨_, rfl⟩
  have hflatten := flatten_pieces s
  rw [unfolded_encode h]
  cases hp : pieces s with
  | nil =>
    -- the empty text is ASCII
    rw [hp] at hflatten
    subst hflatten
    cases h
  | cons t ts =>
    obtain ⟨r, hr⟩ := hword t
    cases ts with
    | nil => rw [List.map_cons, List.map_nil, join, hr, List.head?_cons]
    | cons u ts => rw [List.map_cons, List.map_cons, join, hr, List.cons_append, List.cons_append, List.head?_cons]

/-- the characters of an unfolded value beyond ASCII are those of words, and blanks -/
theorem forall_mem_unfolded_encode {p : Char → Bool} (hblank : p ' ' = true)
    (hframe : (opening ++ closing).all p = true) (hdigit : ∀ n : Fin 64, p (Base64.digit n) = true) {s : List Char}
    (h : isAscii s = false) : ∀ c ∈ unfolded (encode s), p c = true := by
  intro c hc
  rw [unfolded_encode h] at hc
  rcases mem_join hc with hc | ⟨w, hw, hc⟩
  · rw [List.mem_singleton.1 hc]
    exact hblank
  · obtain ⟨t, -, rfl⟩ := List.mem_map.1 hw
    exact forall_mem_word hframe hdigit c hc

theorem joinWords_map_word (encoded : Bool) (t : List Char) (ts : List (List Char)) :
    joinWords encoded ((t :: ts).map word) = (if encoded then [] else [' ']) ++ (t :: ts).flatten := by
  induction ts generalizing encoded t with
  | nil => cases encoded <;> simp [joinWords, decodeWord?_word]
  | cons u ts ih =>
    rw [List.map_cons, joinWords, decodeWord?_word]
    simp only [ih]
    cases encoded <;> simp

/-- **A text beyond ASCII is read back from its unfolded value** -/
theorem decodeText_unfolded_encode {s : List Char} (h : isAscii s = false) : decodeText (unfolded (encode s)) = s := by
  have hwords : words (join [' '] ((pieces s).map word)) = (pieces s).map word := by
    refine words_join (by decide) fun w hw => ?_
    obtain ⟨t, -, rfl⟩ := List.mem_map.1 hw
    have hblank := forall_mem_word (p := fun c => !isBlank c) (by decide) (by decide) (t := t)
    exact ⟨word_ne_nil t, by simpa using hblank⟩
  have hflatten := flatten_pieces s
  rw [decodeText, unfolded_encode h, hwords]
  cases hp : pieces s with
  | nil =>
    rw [hp] at hflatten
    exact hflatten
  | cons t ts =>
    rw [hp] at hflatten
    rw [joinWords_map_word, hflatten]
    rfl

/-! ## ASCII -/

theorem isAscii_word (t : List Char) : isAscii (word t) = true := by
  have hdigits : isAscii (Base64.encode (Utf8.encode t)) = true :=
    isAscii_iff.2 fun c hc => (Base64.isDigit_of_mem_encode c hc).toNat_lt
  have hframe : isAscii opening = true ∧ isAscii closing = true := by decide
  rw [word, isAscii_append, isAscii_append, hframe.1, hdigits, hframe.2]
  rfl

/-- what is written is ASCII: the text that is, or words -/
theorem isAscii_encode (s : List Char) : isAscii (encode s) = true := by
  unfold encode
  split
  · next h => exact h
  · apply List.all_eq_true.2
    intro c hc
    rcases mem_join hc with hc | ⟨w, hw, hc⟩
    · exact List.all_eq_true.1 (by decide : isAscii fold = true) c hc
    · obtain ⟨t, -, rfl⟩ := List.mem_map.1 hw
      exact List.all_eq_true.1 (isAscii_word t) c hc

/-- **A header value in encoded words.** What is written is ASCII, and a text of ASCII is written as it is. Any other
text is written as words with a line break and a blank between them, none longer than 75 characters. Each word is read
by itself as a text that is not empty, these make up the text, and it is read back from the folded value. -/
theorem encode_words (s : List Char) :
    isAscii (encode s) = true ∧ (isAscii s = true → encode s = s) ∧
    (isAscii s = false → ∃ words texts, words ≠ [] ∧ encode s = join ['\r', '\n', ' '] words ∧
      (∀ w ∈ words, IsWord w) ∧ words.mapM decodeWord? = some texts ∧ (∀ t ∈ texts, t ≠ []) ∧ texts.flatten = s ∧
      decodeWords? (encode s) = some s) := by
  refine ⟨isAscii_encode s, fun h => by rw [encode, if_pos h], fun h => ?_⟩
  have hencode : encode s = join fold ((pieces s).map word) := by rw [encode, h, if_neg Bool.false_ne_true]
  have hflatten := flatten_pieces s
  have hpieces := isPiece_of_mem_pieces (s := s)
  cases hp : pieces s with
  | nil =>
    -- the empty text is ASCII
    rw [hp] at hflatten
    subst hflatten
    cases h
  | cons t ts =>
    rw [hp] at hencode hflatten hpieces
    refine ⟨(t :: ts).map word, t :: ts, List.cons_ne_nil _ _, hencode, ?_, mapM_decodeWord? (t :: ts),
      fun u hu => (hpieces u hu).ne_nil, hflatten, ?_⟩
    · intro w hw
      obtain ⟨u, hu, rfl⟩ := List.mem_map.1 hw
      exact (hpieces u hu).isWord
    · rw [hencode, decodeWords?_join, hflatten]

end SheetPost.Mail.EncodedWord
