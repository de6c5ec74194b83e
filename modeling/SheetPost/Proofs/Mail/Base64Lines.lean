/-
The lines of wrapped base64. Digits come in groups of four, and a line has room for nineteen groups, so a line that
another follows is full and the last one has whole groups. Padding is shorter than a group, so it ends the last line and
stands nowhere else.

Main statement: the lines of some bytes, from which the bytes are read back, so that other bytes have other lines
(`wrapped_lines`).
-/
import Mathlib.Algebra.BigOperators.Ring.List
import Mathlib.Algebra.Ring.Nat
import SheetPost.Proofs.Mail.Base64
import SheetPost.Proofs.Text.Utf8

namespace SheetPost.Mail.Base64

open SheetPost.Text

/-! ## Lines -/

/-- a digit of the standard alphabet: a letter or digit of ASCII, a plus sign or a slash -/
def IsAlphabet (c : Char) : Prop := c.isAlphanum = true ∨ c = '+' ∨ c = '/'

/-- a line that another follows -/
structure IsFullLine (l : List Char) : Prop where
  length_eq : l.length = 76
  digits : ∀ c ∈ l, IsAlphabet c

/-- the last line -/
structure IsLastLine (l : List Char) : Prop where
  four_le_length : 4 ≤ l.length
  length_le : l.length ≤ 76
  groups : 4 ∣ l.length
  digits : ∃ body padding, l = body ++ padding ∧ (∀ c ∈ body, IsAlphabet c) ∧ IsPadding padding

theorem isAlphabet_digit {n : Nat} (h : n < 64) : IsAlphabet (digit n) := by
  have key : ∀ m : Fin 64, (digit m).isAlphanum = true ∨ digit m = '+' ∨ digit m = '/' := by decide
  exact key ⟨n, h⟩

theorem IsPadding.length_le {s : List Char} (h : IsPadding s) : s.length ≤ 2 := by
  rcases h with rfl | rfl | rfl <;> decide

/-! ## Pieces -/

/-- all pieces of a text are full but the last, which holds something -/
theorem exists_last_piece (n : Nat) {s : List Char} (h : s ≠ []) :
    ∃ front last, pieces n s = front ++ [last] ∧ (∀ l ∈ front, l.length = n + 1) ∧ last ≠ [] ∧
      last.length ≤ n + 1 := by
  fun_induction pieces n s with
  | case1 => exact absurd rfl h
  | case2 c r ih =>
    by_cases hr : r.drop n = []
    · refine ⟨[], c :: r.take n, by rw [hr, pieces]; rfl, by simp, List.cons_ne_nil _ _, ?_⟩
      rw [List.length_cons, List.length_take]
      omega
    · obtain ⟨front, last, hp, hfront, hlast⟩ := ih hr
      refine ⟨(c :: r.take n) :: front, last, by rw [hp, List.cons_append], ?_, hlast⟩
      have hn : n < r.length := by
        rw [List.drop_eq_nil_iff] at hr
        omega
      apply List.forall_mem_cons.2 ⟨?_, hfront⟩
      rw [List.length_cons, List.length_take]
      omega

/-- padding is too short for the front of it to stand in a line before the last -/
theorem exists_of_append_eq {front last body padding : List Char} (h : front ++ last = body ++ padding)
    (hlength : padding.length ≤ last.length) : ∃ rest, body = front ++ rest ∧ last = rest ++ padding := by
  rcases List.append_eq_append_iff.1 h with ⟨rest, hbody, hlast⟩ | ⟨excess, hfront, hpadding⟩
  · exact ⟨rest, hbody, hlast⟩
  · have hexcess : excess = [] := by
      rw [hpadding, List.length_append] at hlength
      exact List.length_eq_zero_iff.1 (by omega)
    subst hexcess
    exact ⟨[], by rw [hfront, List.append_nil, List.append_nil], by rw [hpadding]; rfl⟩

/-! ## Lines of bytes -/

/-- a piece of digits with padding that is the last of them, behind pieces that are full -/
theorem isLastLine_of_encode {bytes : List UInt8} {front : List (List Char)} {last : List Char}
    (h : front.flatten ++ last = encode bytes) (hfront : ∀ l ∈ front, l.length = 76) (hne : last ≠ [])
    (hle : last.length ≤ 76) : (∀ l ∈ front, IsFullLine l) ∧ IsLastLine last := by
  have hgroups : 4 ∣ last.length := by
    have hfull : 4 ∣ front.flatten.length := by
      rw [List.length_flatten]
      apply List.dvd_sum
      intro n hn
      obtain ⟨l, hl, rfl⟩ := List.mem_map.1 hn
      rw [hfront l hl]
      decide
    have hall : 4 ∣ (front.flatten ++ last).length := by
      rw [h, length_encode]
      exact Nat.dvd_mul_left 4 _
    rw [List.length_append] at hall
    exact (Nat.dvd_add_right hfull).1 hall
  have hfour : 4 ≤ last.length := Nat.le_of_dvd (List.length_pos_iff.2 hne) hgroups
  obtain ⟨body, padding, he, hbody, hpadding⟩ := exists_padding bytes
  have halphabet : ∀ c ∈ body, IsAlphabet c := by
    intro c hc
    obtain ⟨n, hn, rfl⟩ := hbody c hc
    exact isAlphabet_digit hn
  obtain ⟨rest, rfl, rfl⟩ := exists_of_append_eq (h.trans he) (by have := hpadding.length_le; omega)
  refine ⟨fun l hl => ⟨hfront l hl, fun c hc => ?_⟩, hfour, hle, hgroups, rest, padding, rfl, ?_, hpadding⟩
  · exact halphabet c (List.mem_append_left _ (List.mem_flatten.2 ⟨l, hl, hc⟩))
  · exact fun c hc => halphabet c (List.mem_append_right _ hc)

/-- lines that are closed by a break each -/
theorem splitLines_closed {lines : List (List Char)} (h : ∀ l ∈ lines, '\r' ∉ l) :
    splitLines (lines.flatMap (· ++ crlf)) = lines ++ [[]] := by
  induction lines with
  | nil => rfl
  | cons l lines ih =>
    rw [List.flatMap_cons, List.append_assoc, splitLines_append_crlf, splitLines_of_not_mem (h l List.mem_cons_self),
      ih fun m hm => h m (List.mem_cons_of_mem l hm)]
    rfl

/-- the lines are the pieces of the digits, and nothing stands behind the last break -/
theorem splitLines_wrapped (bytes : List UInt8) :
    splitLines (wrapped bytes) = pieces (lineWidth - 1) (encode bytes) ++ [[]] := by
  apply splitLines_closed
  exact fun l hl hcr => (isDigit_of_mem_pieces hl _ hcr).ne.1 rfl

theorem decode?_unfolded_wrapped (bytes : List UInt8) : decode? (unfolded (wrapped bytes)) = some bytes := by
  rw [unfolded, splitLines_wrapped, List.flatten_append, flatten_pieces]
  simpa using decode?_encode bytes

/-- **Bytes in lines of base64.** Nothing is written for no bytes. Otherwise every line is closed by a break, all lines
but the last hold 76 digits of the alphabet, and the last holds whole groups, with padding at its end only. A line that is
cut from the bytes of the digits is never lost, as these are text wherever they are cut. The bytes are read back from the
lines without their breaks, so they are told apart by them. -/
theorem wrapped_lines (bytes : List UInt8) :
    (bytes = [] → wrapped bytes = []) ∧
    (bytes ≠ [] → ∃ front last, wrapped bytes = (front ++ [last]).flatMap (· ++ crlf) ∧
      splitLines (wrapped bytes) = front ++ [last, []] ∧ (∀ l ∈ front, IsFullLine l) ∧ IsLastLine last) ∧
    (∀ k n, Utf8.decode? (((Utf8.encode (encode bytes)).drop k).take n) = some (((encode bytes).drop k).take n)) ∧
    decode? (unfolded (wrapped bytes)) = some bytes ∧
    ∀ other, wrapped bytes = wrapped other → bytes = other := by
  refine ⟨?_, ?_, Utf8.decode?_take_drop fun c hc => (isDigit_of_mem_encode c hc).toNat_lt,
    decode?_unfolded_wrapped bytes, ?_⟩
  · rintro rfl
    rw [wrapped, encode, pieces]
    rfl
  · intro hne
    have hdigits : encode bytes ≠ [] := by
      intro hnil
      have hlength := length_encode bytes
      rw [hnil, List.length_nil] at hlength
      have := List.length_pos_iff.2 hne
      omega
    obtain ⟨front, last, hp, hfront, hlast, hle⟩ := exists_last_piece (lineWidth - 1) hdigits
    have hjoined : front.flatten ++ last = encode bytes := by
      rw [← flatten_pieces (lineWidth - 1) (encode bytes), hp]
      simp
    refine ⟨front, last, by rw [wrapped, hp], ?_, isLastLine_of_encode hjoined hfront hlast hle⟩
    rw [splitLines_wrapped, hp]
    simp
  · intro other h
    apply Option.some.inj
    rw [← decode?_unfolded_wrapped bytes, h, decode?_unfolded_wrapped]

end SheetPost.Mail.Base64
