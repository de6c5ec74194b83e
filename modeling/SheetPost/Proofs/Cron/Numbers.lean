/-
The numbers in the text of a field. Digits that stand there as a whole number, and not behind a slash as a step, are a
value or a bound of an item, and so within the limits of the field.

Main statements: `Grammar.IsField.holds_of_standing` and, for several fields, `Grammar.AreFields.exists_holds`.
-/
import SheetPost.Proofs.Cron.Expression
import SheetPost.Proofs.Text.Search

namespace SheetPost.Cron

open SheetPost.Text

/-! ## Numbers of an item -/

/-- the numbers that a span is made of -/
def Span.numbers : Span → List Nat
  | .all | .names _ _ => []
  | .point n => [n]
  | .range a b => [a, b]

/-- the numbers of an item but for its step -/
def Item.numbers : Item → List Nat
  | .span s | .stepped s _ => s.numbers
  | .name _ => []

theorem holds_of_between? {u : Unit} {a b : Nat} {values : List Nat} (h : between? u a b = some values) :
    u.holds a = true ∧ u.holds b = true := by
  simp only [between?, Option.ite_none_right_eq_some, Bool.and_eq_true] at h
  exact h.1.1

theorem Span.holds_of_values? {u : Unit} {s : Span} {values : List Nat} (h : s.values? u = some values) {n : Nat}
    (hn : n ∈ s.numbers) : u.holds n = true := by
  cases s with
  | all | names => cases hn
  | point m =>
    rw [List.mem_singleton.1 hn]
    exact (Option.ite_none_right_eq_some.1 h).1
  | range a b =>
    obtain ⟨ha, hb⟩ := holds_of_between? h
    simp only [numbers, List.mem_cons, List.not_mem_nil, or_false] at hn
    rcases hn with rfl | rfl
    · exact ha
    · exact hb

/-- the numbers of an item that has values are values of the field -/
theorem Item.holds_of_values? {u : Unit} {x : Item} {values : List Nat} (h : x.values? u = some values) {n : Nat}
    (hn : n ∈ x.numbers) : u.holds n = true := by
  cases x with
  | span s => exact Span.holds_of_values? h hn
  | name => cases hn
  | stepped s step =>
    obtain ⟨-, h⟩ := Option.ite_none_left_eq_some.1 h
    obtain ⟨base, hbase, -⟩ := Option.map_eq_some_iff.1 h
    cases s with
    | point m =>
      rw [List.mem_singleton.1 hn]
      exact (holds_of_between? hbase).1
    | all | range | names => exact Span.holds_of_values? hbase hn

theorem holds_of_values? {u : Unit} {items : List Item} {values : List Nat} (h : values? u items = some values)
    {n : Nat} {x : Item} (hx : x ∈ items) (hn : n ∈ x.numbers) : u.holds n = true := by
  obtain ⟨lists, hlists, -⟩ := Option.map_eq_some_iff.1 h
  obtain ⟨values, -, hvalues⟩ := (exists_of_mapM hlists).1 x hx
  exact x.holds_of_values? hvalues hn

namespace Grammar

/-! ## Where a number stands -/

/-- the last character that is no blank -/
def last? (s : List Char) : Option Char := first? s.reverse

theorem first?_append (s t : List Char) : first? (s ++ t) = (first? s).or (first? t) := by
  induction s with
  | nil => rfl
  | cons c s ih =>
    cases hc : isSpace c with
    | true => simpa [first?, skipSpace, hc] using ih
    | false => simp [first?, skipSpace, hc]

theorem last?_append (s t : List Char) : last? (s ++ t) = (last? t).or (last? s) := by
  rw [last?, List.reverse_append, first?_append, last?, last?]

theorem last?_blanks {b : List Char} (hb : Blanks b) : last? b = none := by
  have := skipSpace_blanks (b := b.reverse) (fun c hc => hb c (List.mem_reverse.1 hc)) []
  rw [List.append_nil] at this
  rw [last?, first?, this]
  rfl

theorem last?_of_getLast? {s : List Char} {c : Char} (h : s.getLast? = some c) (hc : isSpace c = false) :
    last? s = some c := by
  rw [← List.head?_reverse, List.head?_eq_some_iff] at h
  obtain ⟨r, hr⟩ := h
  rw [last?, hr, first?, skipSpace_cons hc]
  rfl

theorem IsSign.last? {x : Char} {q : List Char} (h : IsSign x q) (hx : isSpace x = false) : last? q = some x := by
  obtain ⟨b, b', -, hb', rfl⟩ := h
  rw [last?_append, last?_append, last?_blanks hb', Grammar.last?, List.reverse_singleton, first?, skipSpace_cons hx]
  rfl

/-- the digits `d` stand in the text as a whole number that is no step, where `front` stands in front of the text -/
def Standing (front : Option Char) (d s : List Char) : Prop :=
  ∃ a b, s = a ++ (d ++ b) ∧ Apart a d ∧ Apart d b ∧ (last? a).or front ≠ some '/'

theorem apart_nil_left (r : List Char) : Apart [] r := fun _ hc => by cases hc

theorem Apart.of_append {p q r : List Char} (h : Apart (p ++ q) r) : Apart q r := by
  by_cases hq : q = []
  · subst hq
    exact apart_nil_left r
  · exact (apart_append hq).1 h

theorem Apart.of_append_right {p q r : List Char} (h : Apart p (q ++ r)) : Apart p q := by
  by_cases hq : q = []
  · subst hq
    exact apart_nil p
  · exact (apart_append_right hq).1 h

/-- digits side by side go on as one number -/
theorem eq_nil_of_digits {s t : List Char} (h : Apart s t) (hst : ∀ c ∈ s ++ t, c.isDigit = true) :
    s = [] ∨ t = [] := by
  by_contra hne
  obtain ⟨hs, ht⟩ := not_or.1 hne
  obtain ⟨c, hc⟩ := Option.ne_none_iff_exists'.1 (mt List.getLast?_eq_none_iff.1 hs)
  obtain ⟨c', t, rfl⟩ := List.exists_cons_of_ne_nil ht
  have hjoins := isKind_isDigit c (hst c (List.mem_append_left _ (List.mem_of_getLast? hc))) c'
  rw [h c hc c' rfl, hst c' (by simp)] at hjoins
  cases hjoins

section Standing

variable {d : List Char} {n : Nat} (hd : readDigits? 10 d = some n) {front : Option Char}
include hd

/-- a number that stands in two texts, of which neither goes on with the other, stands in one of them -/
theorem Standing.of_append {p q : List Char} (h : Standing front d (p ++ q)) (hpq : Apart p q) :
    Standing front d p ∨ Standing ((last? p).or front) d q := by
  obtain ⟨a, b, he, ha, hb, hlast⟩ := h
  rcases List.append_eq_append_iff.1 he with ⟨a', rfl, rfl⟩ | ⟨c, rfl, hcut⟩
  · exact .inr ⟨a', b, rfl, ha.of_append, hb, by rwa [← Option.or_assoc, ← last?_append]⟩
  · rcases List.append_eq_append_iff.1 hcut with ⟨e, rfl, rfl⟩ | ⟨e, rfl, rfl⟩
    · exact .inl ⟨a, e, rfl, ha, hb.of_append_right, hlast⟩
    · -- the border of the texts is in the number, so it is at one of its ends
      rcases eq_nil_of_digits hpq.of_append.of_append_right (isDigit_of_readDigits? hd).2 with rfl | rfl
      · rw [List.append_nil]
        exact .inr ⟨[], b, rfl, apart_nil_left e, hb, hlast⟩
      · rw [List.append_nil] at ha ⊢
        exact .inl ⟨a, [], by rw [List.append_nil], ha, apart_nil c, hlast⟩

theorem Standing.exists_digit {q : List Char} (h : Standing front d q) : ∃ c ∈ q, c.isDigit = true := by
  obtain ⟨a, b, rfl, -⟩ := h
  obtain ⟨hne, hall⟩ := isDigit_of_readDigits? hd
  obtain ⟨c, r, rfl⟩ := List.exists_cons_of_ne_nil hne
  exact ⟨c, by simp, hall c List.mem_cons_self⟩

theorem not_standing {q : List Char} (hq : ∀ c ∈ q, c.isAlphanum = false ∨ c.isAlpha = true) :
    ¬ Standing front d q := by
  intro h
  obtain ⟨c, hc, hdigit⟩ := h.exists_digit hd
  rcases hq c hc with h | h
  · rw [isAlphanum_of_isDigit hdigit] at h
    cases h
  · rw [not_isDigit_of_isAlpha h] at hdigit
    cases hdigit

theorem IsSign.not_standing {x : Char} {q : List Char} (h : IsSign x q) (hx : x.isAlphanum = false) :
    ¬ Standing front d q :=
  Grammar.not_standing hd fun c hc => .inl (h.not_isAlphanum hx c hc)

theorem not_standing_blanks {b : List Char} (hb : Blanks b) : ¬ Standing front d b :=
  not_standing hd fun c hc => .inl (not_isAlphanum_of_isSpace (hb c hc))

theorem IsName.not_standing {t q : List Char} (h : IsName t q) : ¬ Standing front d q := by
  obtain ⟨⟨b, b', hb, hb', rfl⟩, -, hall⟩ := h
  refine Grammar.not_standing hd fun c hc => ?_
  rcases List.mem_append.1 hc with hc | hc
  · exact .inl (not_isAlphanum_of_isSpace (hb c hc))
  · rcases List.mem_append.1 hc with hc | hc
    · exact .inr (hall c hc)
    · exact .inl (not_isAlphanum_of_isSpace (hb' c hc))

/-- what stands in a number is that number, and no slash is in front of it -/
theorem IsNumber.of_standing {m : Nat} {q : List Char} (h : IsNumber m q) (hs : Standing front d q) :
    n = m ∧ front ≠ some '/' := by
  obtain ⟨t, ⟨⟨b, b', hb, hb', rfl⟩, hne, hall⟩, hm⟩ := h
  have hfront : Apart b (t ++ b') :=
    apart_of_getLast fun c hc => not_isAlphanum_of_isSpace (hb c (List.mem_of_getLast? hc))
  have hbehind : Apart t b' :=
    apart_of_head fun c hc => not_isAlphanum_of_isSpace (hb' c (List.mem_of_mem_head? hc))
  rcases hs.of_append hd hfront with hs | hs
  · exact absurd hs (not_standing_blanks hd hb)
  · rw [last?_blanks hb, Option.none_or] at hs
    rcases hs.of_append hd hbehind with hs | hs
    · obtain ⟨a, e, rfl, ha, he, hlast⟩ := hs
      simp only [List.forall_mem_append] at hall
      obtain ⟨hdne, hdall⟩ := isDigit_of_readDigits? hd
      -- the number takes all of the digits
      obtain rfl := (eq_nil_of_digits ha (List.forall_mem_append.2 ⟨hall.1, hdall⟩)).resolve_right hdne
      obtain rfl := (eq_nil_of_digits he (List.forall_mem_append.2 ⟨hdall, hall.2.2⟩)).resolve_left hdne
      rw [List.nil_append, List.append_nil, readUnsigned?_of_not_mem (not_mem_of_readDigits? hd rfl), hd,
        Option.filter_eq_some_iff] at hm
      exact ⟨Option.some.inj hm.1, hlast⟩
    · exact absurd hs (not_standing_blanks hd hb')

/-- what stands in two things of one form with a hyphen between them stands in one of them -/
theorem IsPair.of_standing {α : Type} {form : α → List Char → Prop} {P : α → Prop}
    (hform : ∀ {a q front}, form a q → Standing front d q → P a) {x : α × α} {w : List Char} (h : IsPair form x w)
    (hs : Standing front d w) : P x.1 ∨ P x.2 := by
  obtain ⟨p, q, r, hp, hq, hr, rfl⟩ := h
  rcases hs.of_append hd (hq.apart_append (by decide) _ _) with hs | hs
  · exact .inl (hform hp hs)
  · rcases hs.of_append hd (hq.apart (by decide) _) with hs | hs
    · exact absurd hs (hq.not_standing hd (by decide))
    · exact .inr (hform hr hs)

theorem IsSpan.of_standing {s : Span} {q : List Char} (h : IsSpan s q) (hs : Standing front d q) : n ∈ s.numbers := by
  cases h with
  | all hq => exact absurd hs (hq.not_standing hd (by decide))
  | point hq => exact List.mem_singleton.2 (hq.of_standing hd hs).1
  | range hq =>
    rcases hq.of_standing hd (fun h hs => (h.of_standing hd hs).1) hs with h | h
    · exact List.mem_cons.2 (.inl h)
    · exact List.mem_cons_of_mem _ (List.mem_singleton.2 h)
  | names hq => exact (hq.of_standing hd (fun h hs => h.not_standing hd hs) hs).elim False.elim False.elim

theorem IsWide.of_standing {any : Bool} {s : Span} {q : List Char} (h : IsWide any s q) (hs : Standing front d q) :
    n ∈ s.numbers := by
  cases h with
  | any _ hq => exact absurd hs (hq.not_standing hd (by decide))
  | span hq => exact hq.of_standing hd hs

/-- a number that stands in an item is one of its numbers: in its step it would stand behind the slash -/
theorem IsItem.of_standing {any : Bool} {x : Item} {q : List Char} (h : IsItem any x q) (hs : Standing front d q) :
    n ∈ x.numbers := by
  cases h with
  | span hq => exact hq.of_standing hd hs
  | name hq => exact absurd hs (hq.not_standing hd)
  | @stepped s step p q r hp hq hr =>
    rcases hs.of_append hd (hq.apart_append (by decide) _ _) with hs | hs
    · exact hp.of_standing hd hs
    · rcases hs.of_append hd (hq.apart (by decide) _) with hs | hs
      · exact absurd hs (hq.not_standing hd (by decide))
      · rw [hq.last? (by decide), Option.some_or] at hs
        exact absurd rfl (hr.of_standing hd hs).2

theorem IsItems.of_standing {any : Bool} {xs : List Item} {q : List Char} (h : IsItems any xs q)
    (hs : Standing front d q) : ∃ x ∈ xs, n ∈ x.numbers := by
  induction h generalizing front with
  | @one x q hx => exact ⟨x, List.mem_singleton_self x, hx.of_standing hd hs⟩
  | @more x xs p q hx _ ih =>
    have hcomma : IsSign ',' [','] := padded_self _
    rcases hs.of_append hd (hcomma.apart_append (by decide) p q) with hs | hs
    · exact ⟨x, List.mem_cons_self, hx.of_standing hd hs⟩
    · rcases Standing.of_append hd (p := [',']) hs (hcomma.apart (by decide) q) with hs | hs
      · exact absurd hs (hcomma.not_standing hd (by decide))
      · obtain ⟨y, hy, hn⟩ := ih hs
        exact ⟨y, List.mem_cons_of_mem x hy, hn⟩

/-- **A number that stands in a field is within its limits** -/
theorem IsField.holds_of_standing {u : Unit} {q : List Char} {values : List Nat} (h : IsField u q values)
    (hs : Standing front d q) : u.holds n = true := by
  obtain ⟨items, hitems, hvalues⟩ := h
  obtain ⟨x, hx, hn⟩ := hitems.of_standing hd hs
  exact holds_of_values? hvalues hx hn

/-- **A number that stands in several fields is within the limits of one of them** -/
theorem AreFields.exists_holds {us : List Unit} {s : List Char} (h : AreFields us s) (hs : Standing front d s) :
    ∃ u ∈ us, u.holds n = true := by
  obtain ⟨pieces, hpieces, hchain, rfl⟩ := h
  induction hpieces generalizing front with
  | nil =>
    obtain ⟨c, hc, -⟩ := hs.exists_digit hd
    cases hc
  | @cons u q us pieces hq hpieces ih =>
    obtain ⟨hapart, hchain⟩ := List.isChain_cons.1 hchain
    obtain ⟨values, hq⟩ := hq
    rcases hs.of_append hd ((apart_flatten_iff hpieces).2 hapart) with hs | hs
    · exact ⟨u, List.mem_cons_self, hq.holds_of_standing hd hs⟩
    · obtain ⟨u', hu', hn⟩ := ih hchain hs
      exact ⟨u', List.mem_cons_of_mem u hu', hn⟩

end Standing

end Grammar

end SheetPost.Cron
