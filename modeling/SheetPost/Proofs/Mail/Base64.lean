/-
Base64 in lines, read back: the reader passes over line breaks, and no digit is one. The alphabet has no hyphen and no
carriage return, so lines of digits are never taken for anything else in a message.

Main statement: `readWrapped?_wrapped`.
-/
import SheetPost.Proofs.Mail.Lines
import SheetPost.Mail.Base64

namespace SheetPost.Mail.Base64

/-- the bytes of digits in lines -/
def readWrapped? (s : List Char) : Option (List UInt8) := decode? (s.filter fun c => c != '\r' && c != '\n')

/-- a character that a base64 text is made of -/
def IsDigit (c : Char) : Prop := c = '=' ∨ ∃ n < 64, c = digit n

theorem IsDigit.ne {c : Char} (h : IsDigit c) : c ≠ '\r' ∧ c ≠ '\n' ∧ c ≠ ' ' ∧ c ≠ '"' ∧ c ≠ '-' := by
  rcases h with rfl | ⟨n, hn, rfl⟩
  · decide
  · have : ∀ m : Fin 64, digit m ≠ '\r' ∧ digit m ≠ '\n' ∧ digit m ≠ ' ' ∧ digit m ≠ '"' ∧ digit m ≠ '-' := by decide
    exact this ⟨n, hn⟩

theorem IsDigit.toNat_lt {c : Char} (h : IsDigit c) : c.toNat < 0x80 := by
  rcases h with rfl | ⟨n, hn, rfl⟩
  · decide
  · have : ∀ m : Fin 64, (digit m).toNat < 0x80 := by decide
    exact this ⟨n, hn⟩

/-- the signs that fill up the last group of four -/
def IsPadding (s : List Char) : Prop := s = [] ∨ s = ['='] ∨ s = ['=', '=']

/-- digits of six bits, and padding behind them -/
theorem exists_padding (bytes : List UInt8) :
    ∃ body padding, encode bytes = body ++ padding ∧ (∀ c ∈ body, ∃ n < 64, c = digit n) ∧ IsPadding padding := by
  have one {n : Nat} (h : n < 64) : ∀ c ∈ [digit n], ∃ m < 64, c = digit m := by
    intro c hc
    exact ⟨n, h, List.mem_singleton.1 hc⟩
  have more {n : Nat} {s : List Char} (h : n < 64) (hs : ∀ c ∈ s, ∃ m < 64, c = digit m) :
      ∀ c ∈ digit n :: s, ∃ m < 64, c = digit m := List.forall_mem_cons.2 ⟨⟨n, h, rfl⟩, hs⟩
  fun_induction encode bytes with
  | case1 => exact ⟨[], [], rfl, by simp, .inl rfl⟩
  | case2 a =>
    have ha := a.toNat_lt
    exact ⟨[_, _], ['=', '='], rfl, more (by omega) (one (by omega)), .inr (.inr rfl)⟩
  | case3 a b =>
    have ha := a.toNat_lt
    have hb := b.toNat_lt
    exact ⟨[_, _, _], ['='], rfl, more (by omega) (more (by omega) (one (by omega))), .inr (.inl rfl)⟩
  | case4 a b c r ih =>
    have ha := a.toNat_lt
    have hb := b.toNat_lt
    have hc := c.toNat_lt
    obtain ⟨body, padding, he, hbody, hpadding⟩ := ih
    refine ⟨_ :: _ :: _ :: _ :: body, padding, by rw [he]; rfl, ?_, hpadding⟩
    exact more (by omega) (more (by omega) (more (by omega) (more (by omega) hbody)))

theorem isDigit_of_mem_encode {bytes : List UInt8} : ∀ c ∈ encode bytes, IsDigit c := by
  obtain ⟨body, padding, he, hbody, hpadding⟩ := exists_padding bytes
  intro c hc
  rw [he, List.mem_append] at hc
  rcases hc with hc | hc
  · exact .inr (hbody c hc)
  · left
    rcases hpadding with rfl | rfl | rfl
    · cases hc
    · exact List.mem_singleton.1 hc
    · simpa using hc

/-- every group of three bytes, and what is left of one, takes four characters -/
theorem length_encode (bytes : List UInt8) : (encode bytes).length = (bytes.length + 2) / 3 * 4 := by
  fun_induction encode bytes with
  | case1 => rfl
  | case2 a => simp
  | case3 a b => simp
  | case4 a b c r ih =>
    simp only [List.length_cons, ih]
    omega

theorem flatten_pieces (n : Nat) (s : List Char) : (pieces n s).flatten = s := by
  fun_induction pieces n s with
  | case1 => rfl
  | case2 c r ih => rw [List.flatten_cons, ih, List.cons_append, List.take_append_drop]

theorem length_le_of_mem_pieces {n : Nat} {s : List Char} : ∀ l ∈ pieces n s, l.length ≤ n + 1 := by
  fun_induction pieces n s with
  | case1 => exact List.forall_mem_nil _
  | case2 c r ih =>
    rw [List.forall_mem_cons, List.length_cons, List.length_take]
    exact ⟨by omega, ih⟩

theorem isDigit_of_mem_pieces {n : Nat} {bytes : List UInt8} {l : List Char} (hl : l ∈ pieces n (encode bytes)) :
    ∀ c ∈ l, IsDigit c := by
  intro c hc
  have hmem : c ∈ encode bytes := by
    rw [← flatten_pieces n (encode bytes)]
    exact List.mem_flatten.2 ⟨l, hl, hc⟩
  exact isDigit_of_mem_encode c hmem

/-- without the line breaks only the digits are left -/
theorem filter_wrapped (bytes : List UInt8) :
    (wrapped bytes).filter (fun c => c != '\r' && c != '\n') = encode bytes := by
  have hlines (ls : List (List Char)) (h : ∀ c ∈ ls.flatten, IsDigit c) :
      (ls.flatMap (· ++ crlf)).filter (fun c => c != '\r' && c != '\n') = ls.flatten := by
    induction ls with
    | nil => rfl
    | cons l ls ih =>
      rw [List.flatten_cons] at h
      have hl : l.filter (fun c => c != '\r' && c != '\n') = l := by
        rw [List.filter_eq_self]
        intro c hc
        have := (h c (List.mem_append_left _ hc)).ne
        simp [this.1, this.2.1]
      rw [List.flatMap_cons, List.filter_append, List.filter_append, hl, List.flatten_cons,
        ih fun c hc => h c (List.mem_append_right l hc)]
      simp [crlf]
  rw [wrapped, hlines, flatten_pieces]
  rw [flatten_pieces]
  exact isDigit_of_mem_encode

/-- **Bytes are read back from their lines** -/
theorem readWrapped?_wrapped (bytes : List UInt8) : readWrapped? (wrapped bytes) = some bytes := by
  rw [readWrapped?, filter_wrapped, decode?_encode]

end SheetPost.Mail.Base64
