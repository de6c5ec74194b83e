/-
Texts without the characters at their ends: what is cut off satisfies the predicate, and what stays stands in the text.

Main statement: `exists_trimWhile`.
-/
import Mathlib.Data.List.DropRight
import Mathlib.Data.List.TakeWhile
import SheetPost.Text.Blank

namespace SheetPost.Text

/-- the code points of the blanks -/
def blanks : List Nat :=
  [9, 10, 11, 12, 13, 0x20, 0x85, 0xA0, 0x1680, 0x2000, 0x2001, 0x2002, 0x2003, 0x2004, 0x2005, 0x2006, 0x2007, 0x2008,
    0x2009, 0x200A, 0x2028, 0x2029, 0x202F, 0x205F, 0x3000]

/-- what holds of each of them holds of every blank -/
theorem forall_isBlank {P : Char → Prop} (h : ∀ n ∈ blanks, P (Char.ofNat n)) {c : Char} (hc : isBlank c = true) :
    P c := by
  have hmem : c.toNat ∈ blanks := by
    simp only [isBlank, Bool.or_eq_true, Bool.and_eq_true, beq_iff_eq, decide_eq_true_eq] at hc
    simp only [blanks, List.mem_cons, List.not_mem_nil, or_false]
    omega
  have := h c.toNat hmem
  rwa [Char.ofNat_toNat] at this

theorem not_isBlank_of_all {t : List Char} (h : (t.all fun c => !isBlank c) = true) : ∀ c ∈ t, isBlank c = false := by
  simpa using h

/-- a text is what is left of it with what was cut off at either end -/
theorem exists_trimWhile (p : Char → Bool) (s : List Char) :
    ∃ a b, s = a ++ (trimWhile p s ++ b) ∧ (∀ c ∈ a, p c = true) ∧ ∀ c ∈ b, p c = true := by
  refine ⟨s.takeWhile p, ((s.dropWhile p).reverse.takeWhile p).reverse, ?_,
    fun c hc => List.mem_takeWhile_imp hc, ?_⟩
  · rw [trimWhile, dropEndWhile, ← List.reverse_append, List.takeWhile_append_dropWhile, List.reverse_reverse,
      List.takeWhile_append_dropWhile]
  · intro c hc
    exact List.mem_takeWhile_imp (List.mem_reverse.1 hc)

theorem infix_trimWhile (p : Char → Bool) (s : List Char) : trimWhile p s <:+: s := by
  obtain ⟨a, b, hs, -, -⟩ := exists_trimWhile p s
  exact ⟨a, b, by rw [List.append_assoc, ← hs]⟩

theorem infix_trim (s : List Char) : trim s <:+: s := infix_trimWhile isBlank s

theorem dropWhile_eq_self {p : Char → Bool} {s : List Char} (h : ∀ c, s.head? = some c → p c = false) :
    s.dropWhile p = s := by
  cases s with
  | nil => rfl
  | cons c r => rw [List.dropWhile_cons_of_neg (by rw [h c rfl]; exact Bool.false_ne_true)]

/-- the front of a text goes up to the first character that does not satisfy the predicate -/
theorem takeWhile_append {p : Char → Bool} {a b : List Char} (ha : ∀ c ∈ a, p c = true)
    (hb : ∀ c, b.head? = some c → p c = false) : (a ++ b).takeWhile p = a := by
  rw [List.takeWhile_append_of_pos ha]
  cases b with
  | nil => exact List.append_nil a
  | cons c r => rw [List.takeWhile_cons_of_neg (by rw [hb c rfl]; exact Bool.false_ne_true), List.append_nil]

/-- nothing is cut off where neither end satisfies the predicate -/
theorem trimWhile_eq_self {p : Char → Bool} {s : List Char} (hhead : ∀ c, s.head? = some c → p c = false)
    (hlast : ∀ c, s.getLast? = some c → p c = false) : trimWhile p s = s := by
  have hreverse : s.reverse.dropWhile p = s.reverse :=
    dropWhile_eq_self fun c hc => hlast c (by rwa [List.head?_reverse] at hc)
  rw [trimWhile, dropEndWhile, dropWhile_eq_self hhead, hreverse, List.reverse_reverse]

/-- a front that holds no character to cut off stays, and only what stands behind it is cut -/
theorem trimWhile_append_cons {p : Char → Bool} {a : List Char} {c : Char} (ha : ∀ x ∈ a, p x = false)
    (hc : p c = false) (b : List Char) : trimWhile p (a ++ c :: b) = a ++ c :: dropEndWhile p b := by
  have hfront : (a ++ c :: b).dropWhile p = a ++ c :: b := by
    refine dropWhile_eq_self fun x hx => ?_
    cases a with
    | nil =>
      cases hx
      exact hc
    | cons y a =>
      cases hx
      exact ha _ List.mem_cons_self
  have hback : (c :: a.reverse).dropWhile p = c :: a.reverse :=
    List.dropWhile_cons_of_neg (by rw [hc]; exact Bool.false_ne_true)
  calc trimWhile p (a ++ c :: b) = ((b.reverse ++ c :: a.reverse).dropWhile p).reverse := by
        rw [trimWhile, hfront, dropEndWhile, List.reverse_append, List.reverse_cons, List.append_assoc,
          List.singleton_append]
    _ = (b.reverse.dropWhile p ++ c :: a.reverse).reverse := by
        rw [List.dropWhile_append, hback]
        split
        · next hempty => rw [List.isEmpty_iff.1 hempty, List.nil_append]
        · rfl
    _ = a ++ c :: dropEndWhile p b := by simp [dropEndWhile]

/-! ## Ends that were cut off before -/

theorem dropEndWhile_append {p : Char → Bool} {b : List Char} (hb : ∀ c ∈ b, p c = true) (s : List Char) :
    dropEndWhile p (s ++ b) = dropEndWhile p s := by
  rw [dropEndWhile, List.reverse_append, List.dropWhile_append_of_pos (by simpa using hb), dropEndWhile]

theorem trimWhile_append {p : Char → Bool} {b : List Char} (hb : ∀ c ∈ b, p c = true) (s : List Char) :
    trimWhile p (s ++ b) = trimWhile p s := by
  rw [trimWhile, trimWhile, List.dropWhile_append]
  split
  · next hempty =>
    have hall : b.dropWhile p = [] := by
      rw [List.dropWhile_eq_nil_iff]
      exact hb
    rw [hall, List.isEmpty_iff.1 hempty]
  · exact dropEndWhile_append hb _

/-- cutting at the end first makes no difference -/
theorem trimWhile_dropEndWhile (p : Char → Bool) (s : List Char) : trimWhile p (dropEndWhile p s) = trimWhile p s := by
  have hs : dropEndWhile p s ++ (s.reverse.takeWhile p).reverse = s := by
    rw [dropEndWhile, ← List.reverse_append, List.takeWhile_append_dropWhile, List.reverse_reverse]
  calc trimWhile p (dropEndWhile p s)
      = trimWhile p (dropEndWhile p s ++ (s.reverse.takeWhile p).reverse) := by
        rw [trimWhile_append]
        exact fun c hc => List.mem_takeWhile_imp (List.mem_reverse.1 hc)
    _ = trimWhile p s := by rw [hs]

/-- cutting at the front first makes none either -/
theorem trimWhile_dropWhile (p : Char → Bool) (s : List Char) : trimWhile p (s.dropWhile p) = trimWhile p s := by
  rw [trimWhile, List.dropWhile_idempotent, ← trimWhile]

theorem trimWhile_trimWhile (p : Char → Bool) (s : List Char) : trimWhile p (trimWhile p s) = trimWhile p s := by
  calc trimWhile p (trimWhile p s) = trimWhile p (s.dropWhile p) := trimWhile_dropEndWhile p (s.dropWhile p)
    _ = trimWhile p s := trimWhile_dropWhile p s

theorem trimWhile_behind {p : Char → Bool} {a : List Char} (ha : ∀ c ∈ a, p c = true) (s : List Char) :
    trimWhile p (a ++ s) = trimWhile p s := by
  rw [trimWhile, List.dropWhile_append_of_pos ha, trimWhile]

theorem head_of_trimWhile {p : Char → Bool} {c : Char} {r s : List Char} (h : trimWhile p s = c :: r) :
    p c = false := by
  rw [← Bool.not_eq_true]
  intro hc
  -- the text that is left would lose its head
  have hagain := trimWhile_trimWhile p s
  rw [h, ← List.singleton_append, trimWhile_behind (by simpa using hc)] at hagain
  have hlength := (infix_trimWhile p r).length_le
  rw [hagain, List.singleton_append, List.length_cons] at hlength
  omega

/-- a character that is not cut off occurs as often as before -/
theorem count_trimWhile {p : Char → Bool} {c : Char} (hc : p c = false) (s : List Char) :
    (trimWhile p s).count c = s.count c := by
  obtain ⟨a, b, hs, ha, hb⟩ := exists_trimWhile p s
  have hnone {t : List Char} (ht : ∀ d ∈ t, p d = true) : t.count c = 0 := by
    rw [List.count_eq_zero]
    intro hmem
    rw [ht c hmem] at hc
    cases hc
  calc (trimWhile p s).count c = (a ++ (trimWhile p s ++ b)).count c := by
        rw [List.count_append, List.count_append, hnone ha, hnone hb, Nat.zero_add, Nat.add_zero]
    _ = s.count c := by rw [← hs]

end SheetPost.Text
