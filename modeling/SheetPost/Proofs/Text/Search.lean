/-
Texts within texts: `occursIn` is the infix relation, and cutting and splitting undo joining when the first character
of the needle does not come again in it. Then no place can begin in a piece and end behind it.

Main statement: the pieces of joined pieces that do not hold the separator are those pieces (`splitAtText_join`).
-/
import SheetPost.Text.Search

namespace SheetPost.Text

variable {x : Char} {n needle s a b : List Char}

/-! ## Places -/

theorem after?_eq_none_iff : after? needle s = none ↔ ¬ needle <+: s := by
  constructor
  · intro h h
    obtain ⟨r, rfl⟩ := h
    rw [after?_append] at h
    cases h
  · intro h
    cases hs : after? needle s with
    | none => rfl
    | some r => exact absurd ⟨r, (after?_eq_some hs).symm⟩ h

theorem cutAtText_eq_none_iff : cutAtText needle s = none ↔ ¬ needle <:+: s := by
  induction s with
  | nil =>
    cases needle with
    | nil => simp [cutAtText]
    | cons x n => simp [cutAtText]
  | cons c r ih =>
    rw [List.infix_cons_iff, not_or, ← ih, ← after?_eq_none_iff, cutAtText]
    cases after? needle (c :: r) with
    | none => simp
    | some rest => simp

theorem occursIn_iff : occursIn needle s = true ↔ needle <:+: s := by
  have h : cutAtText needle s = none ↔ ¬ needle <:+: s := cutAtText_eq_none_iff
  cases hc : cutAtText needle s with
  | none => simpa [occursIn, hc] using h.1 hc
  | some p => simpa [occursIn, hc] using h

theorem occursIn_eq_false_iff : occursIn needle s = false ↔ ¬ needle <:+: s := by
  rw [← Bool.not_eq_true, occursIn_iff]

/-! ## Cutting -/

/-- a needle that would go over the end of `a` would begin again there -/
theorem not_prefix_append (hx : x ∉ n) (ha : a ≠ []) (hp : ¬ (x :: n) <+: a) : ¬ (x :: n) <+: a ++ x :: b := by
  intro h
  rcases List.prefix_or_prefix_of_prefix h (List.prefix_append a (x :: b)) with h1 | ⟨t, ht⟩
  · exact hp h1
  · obtain ⟨r, hr⟩ := h
    rw [← ht, List.append_assoc, List.append_cancel_left_eq] at hr
    cases t with
    | nil =>
      rw [List.append_nil] at ht
      exact hp ⟨[], by rw [List.append_nil, ht]⟩
    | cons y t =>
      -- the needle is `a` with a piece that begins with `x`, so `x` stands behind its head
      have hy : y = x := by simpa using congrArg List.head? hr
      subst hy
      cases a with
      | nil => exact ha rfl
      | cons c a =>
        simp only [List.cons_append, List.cons.injEq] at ht
        exact hx (by rw [← ht.2]; simp)

/-- the first place of the needle is the one behind a text that does not hold it -/
theorem cutAtText_append (hx : x ∉ n) (ha : ¬ (x :: n) <:+: a) :
    cutAtText (x :: n) (a ++ (x :: n ++ b)) = some (a, b) := by
  induction a with
  | nil => simp [cutAtText, after?, after?_append]
  | cons c a ih =>
    rw [List.infix_cons_iff, not_or] at ha
    have hnone : after? (x :: n) (c :: a ++ (x :: n ++ b)) = none :=
      after?_eq_none_iff.2 (not_prefix_append hx (by simp) ha.1)
    rw [List.cons_append] at hnone ⊢
    rw [cutAtText, hnone, ih ha.2]
    rfl

theorem cutAt_append (ha : x ∉ a) : cutAt x (a ++ x :: b) = some (a, b) := by
  induction a with
  | nil => simp [cutAt]
  | cons c a ih =>
    rw [List.mem_cons, not_or] at ha
    have hc : (c == x) = false := by simpa using Ne.symm ha.1
    rw [List.cons_append, cutAt, hc, ih ha.2]
    rfl

theorem cutAtLast_eq_some_iff : cutAtLast x s = some (a, b) ↔ s = a ++ x :: b ∧ x ∉ b := by
  constructor
  · intro h
    obtain ⟨⟨p, q⟩, hr, he⟩ := Option.map_eq_some_iff.1 h
    obtain ⟨hs, hx⟩ := cutAt_eq_some hr
    cases he
    refine ⟨?_, by rwa [List.mem_reverse]⟩
    rw [← s.reverse_reverse, hs]
    simp
  · intro h
    obtain ⟨rfl, hx⟩ := h
    have hr : (a ++ x :: b).reverse = b.reverse ++ x :: a.reverse := by simp
    rw [cutAtLast, hr, cutAt_append (by rwa [List.mem_reverse])]
    simp

theorem cutAtLast_eq_none_iff : cutAtLast x s = none ↔ x ∉ s := by
  rw [cutAtLast, Option.map_eq_none_iff, cutAt_eq_none_iff, List.mem_reverse]

/-! ## Joining -/

theorem mem_join {sep : List Char} {pieces : List (List Char)} {c : Char} (h : c ∈ join sep pieces) :
    c ∈ sep ∨ ∃ p ∈ pieces, c ∈ p := by
  fun_induction join sep pieces with
  | case1 => cases h
  | case2 s => exact .inr ⟨s, List.mem_singleton_self s, h⟩
  | case3 s t r ih =>
    rcases List.mem_append.1 h with h | h
    · rcases List.mem_append.1 h with h | h
      · exact .inr ⟨s, List.mem_cons_self, h⟩
      · exact .inl h
    · rcases ih h with h | ⟨p, hp, h⟩
      · exact .inl h
      · exact .inr ⟨p, List.mem_cons_of_mem s hp, h⟩

/-- a piece stands in the joined text -/
theorem infix_join {sep p : List Char} {pieces : List (List Char)} (h : p ∈ pieces) : p <:+: join sep pieces := by
  fun_induction join sep pieces with
  | case1 => cases h
  | case2 s =>
    obtain rfl := List.mem_singleton.1 h
    exact List.infix_rfl
  | case3 s t r ih =>
    rcases List.mem_cons.1 h with rfl | h
    · rw [List.append_assoc]
      exact (List.prefix_append p _).isInfix
    · exact List.infix_append_of_infix_right (ih h)

/-- nothing but the separator stands next to a piece -/
theorem exists_join_of_mem {p : List Char} {pieces : List (List Char)} (h : p ∈ pieces) :
    ∃ a b, join [x] pieces = a ++ (p ++ b) ∧ (∀ c ∈ a.getLast?, c = x) ∧ ∀ c ∈ b.head?, c = x := by
  fun_induction join [x] pieces with
  | case1 => cases h
  | case2 s =>
    obtain rfl := List.mem_singleton.1 h
    exact ⟨[], [], by simp, by simp, by simp⟩
  | case3 s t r ih =>
    rcases List.mem_cons.1 h with rfl | h
    · exact ⟨[], x :: join [x] (t :: r), by simp, by simp, by simp⟩
    · obtain ⟨a, b, he, ha, hb⟩ := ih h
      refine ⟨s ++ [x] ++ a, b, by rw [he, List.append_assoc (s ++ [x])], fun c hc => ?_, hb⟩
      rw [List.getLast?_append, Option.mem_def, Option.or_eq_some_iff] at hc
      rcases hc with hc | ⟨-, hc⟩
      · exact ha c hc
      · simpa using hc.symm

theorem infix_of_mem_split {w : List Char} (h : w ∈ split (· == x) s) : w <:+: s := by
  have := @infix_join [x] w _ h
  rwa [join_split] at this

/-! ## Pieces one by one -/

/-- results of a list come from its elements, and each element has one -/
theorem exists_of_mapM {α β : Type} {f : α → Option β} {xs : List α} {ys : List β} (h : xs.mapM f = some ys) :
    (∀ x ∈ xs, ∃ y ∈ ys, f x = some y) ∧ ∀ y ∈ ys, ∃ x ∈ xs, f x = some y := by
  induction xs generalizing ys with
  | nil =>
    cases h
    exact ⟨List.forall_mem_nil _, List.forall_mem_nil _⟩
  | cons x xs ih =>
    simp only [List.mapM_cons, Option.bind_eq_bind, Option.bind_eq_some_iff, Option.pure_def, Option.some.injEq] at h
    obtain ⟨y, hy, ys, hys, rfl⟩ := h
    obtain ⟨hresults, helements⟩ := ih hys
    constructor
    · refine List.forall_mem_cons.2 ⟨⟨y, List.mem_cons_self, hy⟩, fun z hz => ?_⟩
      obtain ⟨w, hw, hzw⟩ := hresults z hz
      exact ⟨w, List.mem_cons_of_mem y hw, hzw⟩
    · refine List.forall_mem_cons.2 ⟨⟨x, List.mem_cons_self, hy⟩, fun w hw => ?_⟩
      obtain ⟨z, hz, hzw⟩ := helements w hw
      exact ⟨z, List.mem_cons_of_mem x hz, hzw⟩

/-! ## Splitting -/

theorem splitAtText_eq_singleton (h : ¬ needle <:+: s) : splitAtText needle s = [s] := by
  rw [splitAtText, cutAtText_eq_none_iff.2 h]

theorem splitAtText_append (hx : x ∉ n) (ha : ¬ (x :: n) <:+: a) :
    splitAtText (x :: n) (a ++ (x :: n ++ b)) = a :: splitAtText (x :: n) b := by
  rw [splitAtText, cutAtText_append hx ha]
  simp only
  rw [if_pos]
  simp only [List.length_append, List.length_cons]
  omega

/-- **Splitting is the inverse of joining**, where no piece holds the separator -/
theorem splitAtText_join (hx : x ∉ n) (p : List Char) (ps : List (List Char))
    (hp : ∀ q ∈ p :: ps, ¬ (x :: n) <:+: q) : splitAtText (x :: n) (join (x :: n) (p :: ps)) = p :: ps := by
  induction ps generalizing p with
  | nil => exact splitAtText_eq_singleton (hp p List.mem_cons_self)
  | cons q ps ih =>
    have hj : join (x :: n) (p :: q :: ps) = p ++ (x :: n ++ join (x :: n) (q :: ps)) := by
      simp [join]
    rw [hj, splitAtText_append hx (hp p List.mem_cons_self), ih q fun r hr => hp r (List.mem_cons_of_mem p hr)]

/-- a character that does not separate goes to the first piece -/
theorem split_cons {p : Char → Bool} {c : Char} {piece : List Char} {pieces : List (List Char)} (hc : p c = false)
    (hs : split p s = piece :: pieces) : split p (c :: s) = (c :: piece) :: pieces := by
  rw [split, hc, hs]

end SheetPost.Text
