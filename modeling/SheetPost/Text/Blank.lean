/-
White space as Unicode defines it, and the cuts of a text that go by it: `trim`, `words`, `split`. Texts are lists of
characters here; a `String` is turned into one with `toList`.

Main statements: `split` loses nothing but the separators (`join_split`), and no piece holds one
(`not_mem_of_mem_split`).
-/

namespace SheetPost.Text

/-- the characters with the property White_Space -/
def isBlank (c : Char) : Bool :=
  let n := c.toNat
  (9 ≤ n && n ≤ 13) || n == 0x20 || n == 0x85 || n == 0xA0 || n == 0x1680 || (0x2000 ≤ n && n ≤ 0x200A) ||
    n == 0x2028 || n == 0x2029 || n == 0x202F || n == 0x205F || n == 0x3000

/-- the text without the characters at its end that satisfy `p` -/
def dropEndWhile (p : Char → Bool) (s : List Char) : List Char :=
  (s.reverse.dropWhile p).reverse

/-- the text without the characters at both ends that satisfy `p` -/
def trimWhile (p : Char → Bool) (s : List Char) : List Char :=
  dropEndWhile p (s.dropWhile p)

/-- the text without blanks at its ends -/
def trim (s : List Char) : List Char := trimWhile isBlank s

/-- nothing but blanks, or nothing at all -/
def isAllBlank (s : String) : Bool := s.toList.all isBlank

/-- the pieces between the separators: one more than there are separators -/
def split (p : Char → Bool) : List Char → List (List Char)
  | [] => [[]]
  | c :: r =>
    match p c, split p r with
    | true, pieces => [] :: pieces
    | false, [] => [[c]]
    | false, piece :: pieces => (c :: piece) :: pieces

/-- the maximal runs without a blank -/
def words (s : List Char) : List (List Char) :=
  (split isBlank s).filter (fun w => !w.isEmpty)

/-- the text before and after the first `x`, if there is one -/
def cutAt (x : Char) : List Char → Option (List Char × List Char)
  | [] => none
  | c :: r => if c == x then some ([], r) else (cutAt x r).map fun (a, b) => (c :: a, b)

/-- the text before and after the last `x`, if there is one -/
def cutAtLast (x : Char) (s : List Char) : Option (List Char × List Char) :=
  (cutAt x s.reverse).map fun (b, a) => (a.reverse, b.reverse)

/-- the text behind `lead`, if it begins so -/
def after? : List Char → List Char → Option (List Char)
  | [], s => some s
  | _ :: _, [] => none
  | x :: lead, c :: s => if x == c then after? lead s else none

/-- pieces with `sep` between them -/
def join (sep : List Char) : List (List Char) → List Char
  | [] => []
  | [s] => s
  | s :: t :: r => s ++ sep ++ join sep (t :: r)

theorem split_ne_nil (p : Char → Bool) (s : List Char) : split p s ≠ [] := by
  cases s with
  | nil => simp [split]
  | cons c r =>
    simp only [split]
    split <;> simp

theorem not_mem_of_mem_split {p : Char → Bool} {s w : List Char} (h : w ∈ split p s) : ∀ c ∈ w, p c = false := by
  induction s generalizing w with
  | nil => simp_all [split]
  | cons c r ih =>
    simp only [split] at h
    split at h
    · next hp =>
      rcases List.mem_cons.1 h with rfl | h
      · simp
      · exact ih h
    · next hp _ =>
      simp only [List.mem_singleton] at h
      subst h
      simpa using hp
    · next piece pieces hp hs =>
      rcases List.mem_cons.1 h with rfl | h
      · intro d hd
        rcases List.mem_cons.1 hd with rfl | hd
        · exact hp
        · exact ih (by simp [hs]) d hd
      · exact ih (by simp [hs, h])

theorem join_cons_head (sep : List Char) (c : Char) (piece : List Char) (pieces : List (List Char)) :
    join sep ((c :: piece) :: pieces) = c :: join sep (piece :: pieces) := by
  cases pieces <;> simp [join]

theorem join_split (x : Char) (s : List Char) : join [x] (split (· == x) s) = s := by
  induction s with
  | nil => rfl
  | cons c r ih =>
    simp only [split]
    split
    · next pieces hp =>
      have hc : c = x := by simpa using hp
      cases hs : split (· == x) r with
      | nil => exact absurd hs (split_ne_nil _ _)
      | cons a b => simp_all [join]
    · next hp hs => exact absurd hs (split_ne_nil _ _)
    · next piece pieces hp hs => rw [join_cons_head, ← hs, ih]

theorem cutAt_eq_some {x : Char} {s a b : List Char} (h : cutAt x s = some (a, b)) : s = a ++ x :: b ∧ x ∉ a := by
  induction s generalizing a b with
  | nil => simp [cutAt] at h
  | cons c r ih =>
    simp only [cutAt] at h
    split at h
    · next hc => simp_all
    · next hc =>
      obtain ⟨⟨a', b'⟩, hr, he⟩ := Option.map_eq_some_iff.1 h
      simp only [Prod.mk.injEq] at he
      obtain ⟨rfl, rfl⟩ := he
      obtain ⟨rfl, hn⟩ := ih hr
      refine ⟨rfl, ?_⟩
      simp only [List.mem_cons, not_or]
      exact ⟨fun e => hc (by simp [e]), hn⟩

theorem cutAt_eq_none_iff {x : Char} {s : List Char} : cutAt x s = none ↔ x ∉ s := by
  induction s with
  | nil => simp [cutAt]
  | cons c r ih =>
    simp only [cutAt]
    split
    · next hc => simp_all
    · next hc =>
      have hx : ¬x = c := fun e => hc (by simp [e])
      simp [ih, hx]

theorem after?_append (lead s : List Char) : after? lead (lead ++ s) = some s := by
  induction lead with
  | nil => cases s <;> rfl
  | cons x r ih => simpa [after?] using ih

end SheetPost.Text
