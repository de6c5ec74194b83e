/-
Texts in which a sign stands between any two things. Where one field ends and the next begins there is none, so behind
what is a field by itself such a text holds no border of two fields.

Main statement: `AreFields.not_divided`.
-/
import SheetPost.Proofs.Cron.Numbers

namespace SheetPost.Cron.Grammar

open SheetPost.Text

/-! ## Divided texts -/

/-- the signs between the numbers and names of a field -/
def divides (c : Char) : Bool := c == ',' || c == '-' || c == '/'

/-- of two characters side by side one is a sign, or they are of one number or of one name -/
def Divided (s : List Char) : Prop :=
  s.IsChain fun c d => divides c = true ∨ divides d = true ∨ joins c d = true

instance : DecidablePred Divided := fun s => by unfold Divided; infer_instance

theorem Divided.of_append {s t : List Char} (h : Divided (s ++ t)) : Divided s ∧ Divided t :=
  ⟨List.IsChain.left_of_append h, List.IsChain.right_of_append h⟩

/-- texts with a sign between them are divided just if each of them is -/
theorem divided_append_sign_iff {x : Char} (hx : divides x = true) {s t : List Char} :
    Divided (s ++ x :: t) ↔ Divided s ∧ Divided t := by
  constructor
  · intro h
    have hsign : Divided ([x] ++ t) := h.of_append.2
    exact ⟨h.of_append.1, hsign.of_append.2⟩
  · intro h
    refine List.IsChain.append h.1 (List.IsChain.cons h.2 fun _ _ => .inl hx) ?_
    rintro c - d ⟨⟩
    exact .inr (.inl hx)

theorem Divided.join {pieces : List (List Char)} (h : ∀ p ∈ pieces, Divided p) : Divided (join [','] pieces) := by
  fun_induction Text.join [','] pieces with
  | case1 => exact List.IsChain.nil
  | case2 s => exact h s List.mem_cons_self
  | case3 s t r ih =>
    obtain ⟨hs, hrest⟩ := List.forall_mem_cons.1 h
    rw [List.append_assoc, List.singleton_append]
    exact (divided_append_sign_iff (by decide)).2 ⟨hs, ih hrest⟩

theorem divided_of_digits {s : List Char} (h : ∀ c ∈ s, c.isDigit = true) : Divided s := by
  refine (List.pairwise_of_forall_mem_list fun c hc d hd => ?_).isChain
  right
  right
  rw [isKind_isDigit c (h c hc)]
  exact h d hd

/-! ## Ends of a field -/

theorem IsRun.last {p : Char → Bool} {t q : List Char} (h : IsRun p t q) (hp : IsKind p) :
    ∃ c, last? q = some c ∧ p c = true := by
  obtain ⟨⟨b, b', -, hb', rfl⟩, hne, hall⟩ := h
  obtain ⟨c, hc⟩ := Option.ne_none_iff_exists'.1 (mt List.getLast?_eq_none_iff.1 hne)
  have hpc := hall c (List.mem_of_getLast? hc)
  refine ⟨c, ?_, hpc⟩
  rw [last?_append, last?_append, last?_blanks hb', Option.none_or,
    last?_of_getLast? hc (not_isSpace_of_isAlphanum (hp.isAlphanum hpc)), Option.some_or]

theorem last?_append_of {q : List Char} {P : Char → Prop} (h : ∃ c, last? q = some c ∧ P c) (p : List Char) :
    ∃ c, last? (p ++ q) = some c ∧ P c := by
  obtain ⟨c, hc, hP⟩ := h
  exact ⟨c, by rw [last?_append, hc, Option.some_or], hP⟩

theorem IsNumber.last {n : Nat} {q : List Char} (h : IsNumber n q) : ∃ c, last? q = some c ∧ starts c = true := by
  obtain ⟨t, ht, -⟩ := h
  obtain ⟨c, hc, hdigit⟩ := ht.last isKind_isDigit
  exact ⟨c, hc, starts_of_isAlphanum (isAlphanum_of_isDigit hdigit)⟩

theorem IsName.last {t q : List Char} (h : IsName t q) : ∃ c, last? q = some c ∧ starts c = true := by
  obtain ⟨c, hc, halpha⟩ := IsRun.last h isKind_isAlpha
  exact ⟨c, hc, starts_of_isAlphanum (isAlphanum_of_isAlpha halpha)⟩

theorem IsPair.last {α : Type} {form : α → List Char → Prop} {P : Char → Prop}
    (hform : ∀ {a q}, form a q → ∃ c, last? q = some c ∧ P c) {x : α × α} {w : List Char} (h : IsPair form x w) :
    ∃ c, last? w = some c ∧ P c := by
  obtain ⟨p, q, r, -, -, hr, rfl⟩ := h
  exact last?_append_of (last?_append_of (hform hr) q) p

theorem IsSpan.last {s : Span} {q : List Char} (h : IsSpan s q) : ∃ c, last? q = some c ∧ starts c = true := by
  cases h with
  | all hq => exact ⟨'*', hq.last? (by decide), by decide⟩
  | range hq => exact hq.last fun h => h.last
  | point hq => exact hq.last
  | names hq => exact hq.last fun h => h.last

theorem IsWide.last {any : Bool} {s : Span} {q : List Char} (h : IsWide any s q) :
    ∃ c, last? q = some c ∧ starts c = true := by
  cases h with
  | any _ hq => exact ⟨'?', hq.last? (by decide), by decide⟩
  | span hq => exact hq.last

theorem IsItem.last {any : Bool} {x : Item} {q : List Char} (h : IsItem any x q) :
    ∃ c, last? q = some c ∧ starts c = true := by
  cases h with
  | @stepped s n p q r _ _ hr => exact last?_append_of (last?_append_of hr.last q) p
  | span hq => exact hq.last
  | name hq => exact hq.last

theorem IsItems.last {any : Bool} {xs : List Item} {q : List Char} (h : IsItems any xs q) :
    ∃ c, last? q = some c ∧ starts c = true := by
  induction h with
  | one hx => exact hx.last
  | @more x xs p q _ _ ih => exact last?_append_of (last?_append_of ih [',']) p

/-- a field ends with what an item can begin with: a digit, a letter, a star or a question mark -/
theorem IsField.last {u : Unit} {q : List Char} {values : List Nat} (h : IsField u q values) :
    ∃ c, last? q = some c ∧ starts c = true := by
  obtain ⟨items, hitems, -⟩ := h
  exact hitems.last

theorem divides_eq_false_of_head {s : List Char} (h : ∃ c, first? s = some c ∧ starts c = true) :
    ∀ d ∈ s.head?, divides d = false := by
  intro d hd
  obtain ⟨c, hc, hstarts⟩ := h
  obtain ⟨r, rfl⟩ := List.head?_eq_some_iff.1 hd
  cases hspace : isSpace d with
  | true =>
    simp only [isSpace, Bool.or_eq_true, beq_iff_eq] at hspace
    rcases hspace with ((rfl | rfl) | rfl) | rfl <;> rfl
  | false =>
    rw [first?, skipSpace_cons hspace] at hc
    cases hc
    simp only [starts, Bool.or_eq_true, beq_iff_eq] at hstarts
    cases hdivides : divides d with
    | false => rfl
    | true =>
      simp only [divides, Bool.or_eq_true, beq_iff_eq] at hdivides
      rcases hdivides with (rfl | rfl) | rfl <;> rcases hstarts with (h | h) | h <;> cases h

theorem IsField.divides_head {u : Unit} {q : List Char} {values : List Nat} (h : IsField u q values) :
    ∀ d ∈ q.head?, divides d = false := by
  have hfirst := h.first []
  rw [List.append_nil] at hfirst
  exact divides_eq_false_of_head hfirst

theorem IsField.divides_getLast {u : Unit} {q : List Char} {values : List Nat} (h : IsField u q values) :
    ∀ c ∈ q.getLast?, divides c = false := by
  rw [← List.head?_reverse]
  exact divides_eq_false_of_head h.last

/-! ## Borders -/

/-- what is a field by itself, with blanks behind it, does not begin with two fields -/
theorem IsField.append_blanks_ne {u v : Unit} {p q r b s : List Char} {values values' values'' : List Nat}
    (h : IsField u p values) (hb : Blanks b) (hq : IsField u q values') (hr : IsField v r values'')
    (hapart : Apart q r) : p ++ b ≠ q ++ (r ++ s) := by
  intro he
  obtain ⟨c, hc, -⟩ := hr.first s
  have hnone : first? b = none := by
    have := skipSpace_blanks hb []
    rw [List.append_nil] at this
    rw [first?, this]
    rfl
  have hends : Ends ['-', '/', ','] p b :=
    ends_of_starts (apart_of_head fun d hd => not_isAlphanum_of_isSpace (hb d (List.mem_of_mem_head? hd)))
      fun d hd => by rw [hnone] at hd; cases hd
  have hends' : Ends ['-', '/', ','] q (r ++ s) :=
    ends_of_starts ((apart_append_right ((reads_field v).ne_nil hr)).2 hapart) fun _ => hr.starts_of_first?
  have hread := (reads_field u).complete h hends
  rw [he, (reads_field u).complete hq hends', Option.some.injEq, Prod.mk.injEq] at hread
  rw [first?, hread.2, ← first?, hnone] at hc
  cases hc

/-- **A divided text behind a field does not hold the border of two more** -/
theorem AreFields.not_divided {u v w : Unit} {p t : List Char} {values : List Nat} (hp : IsField u p values)
    (h : AreFields [u, v, w] (p ++ ' ' :: t)) : ¬ Divided t := by
  intro hdivided
  obtain ⟨pieces, hpieces, hchain, he⟩ := h
  obtain ⟨q, r, s, rfl⟩ : ∃ q r s, pieces = [q, r, s] := List.length_eq_three.1 hpieces.length_eq.symm
  simp only [List.forall₂_cons, List.forall₂_nil_left_iff] at hpieces
  obtain ⟨⟨_, hq⟩, ⟨_, hr⟩, ⟨_, hs⟩, -⟩ := hpieces
  obtain ⟨hqr, hrs⟩ : Apart q r ∧ Apart r s := by simpa using hchain
  rw [List.flatten_cons, List.flatten_cons, List.flatten_cons, List.flatten_nil, List.append_nil,
    ← List.append_assoc] at he
  rcases List.append_eq_append_iff.1 he with ⟨a, ha, ht⟩ | ⟨a, rfl, -⟩
  · cases a with
    | nil => exact hp.append_blanks_ne (List.forall_mem_nil _) hq hr hqr (s := []) (by simpa using ha.symm)
    | cons c a =>
      obtain ⟨rfl, rfl⟩ := List.cons.inj ht
      by_cases hnil : a = []
      · subst hnil
        exact hp.append_blanks_ne (b := [' ']) (by simp [Blanks, isSpace]) hq hr hqr (s := []) (by simpa using ha.symm)
      · -- the text holds the end of the second field and the whole of the third
        obtain ⟨c, hc⟩ := Option.ne_none_iff_exists'.1 (mt List.getLast?_eq_none_iff.1 hnil)
        have hlast : r.getLast? = some c := by
          rw [← List.getLast?_append_of_ne_nil q ((reads_field v).ne_nil hr), ha, List.append_cons,
            List.getLast?_append_of_ne_nil _ hnil, hc]
        obtain ⟨d, s, rfl⟩ := List.exists_cons_of_ne_nil ((reads_field w).ne_nil hs)
        have hborder := (List.isChain_append.1 hdivided).2.2 c hc d rfl
        rw [hr.divides_getLast c hlast, hs.divides_head d rfl, hrs c hlast d rfl] at hborder
        simp at hborder
  · exact hp.append_blanks_ne (List.forall_mem_nil _) hq hr hqr (s := a) (by simp)

end SheetPost.Cron.Grammar
