/-
The grammar of cron expressions as a relation between what is read and the texts that it stands for, beside the readers.
Every reader reads just the texts of its form, as far as nothing behind them goes on with what stands in front.

Main statement: a text is one field with given values just if the reader of the field reads the whole of it
(`field?_eq_some_iff`).
-/
import Mathlib.Data.List.TakeWhile
import Mathlib.Data.List.DropRight
import SheetPost.Cron.Grammar
import SheetPost.Proofs.Text.Numeral

namespace SheetPost.Cron.Grammar

open SheetPost.Text

/-! ## Blanks -/

/-- blanks of the grammar and nothing else -/
def Blanks (b : List Char) : Prop := ∀ c ∈ b, isSpace c = true

/-- `t` with blanks on both sides -/
def Padded (t q : List Char) : Prop := ∃ b b', Blanks b ∧ Blanks b' ∧ q = b ++ (t ++ b')

/-- the first character that is no blank -/
def first? (s : List Char) : Option Char := (skipSpace s).head?

theorem padded_self (t : List Char) : Padded t t :=
  ⟨[], [], List.forall_mem_nil _, List.forall_mem_nil _, by rw [List.append_nil, List.nil_append]⟩

theorem skipSpace_blanks {b : List Char} (hb : Blanks b) (s : List Char) : skipSpace (b ++ s) = skipSpace s :=
  List.dropWhile_append_of_pos hb

theorem skipSpace_cons {c : Char} (hc : isSpace c = false) (s : List Char) : skipSpace (c :: s) = c :: s := by
  simp [skipSpace, hc]

@[simp] theorem skipSpace_skipSpace (s : List Char) : skipSpace (skipSpace s) = skipSpace s := by
  unfold skipSpace
  induction s with
  | nil => rfl
  | cons c s ih =>
    cases hc : isSpace c with
    | true => simpa [hc] using ih
    | false => simp [hc]

theorem exists_skipSpace (s : List Char) : ∃ b, Blanks b ∧ s = b ++ skipSpace s :=
  ⟨s.takeWhile isSpace, fun _ hc => List.mem_takeWhile_imp hc, List.takeWhile_append_dropWhile.symm⟩

theorem skipSpace_padded {t q : List Char} {c : Char} (hq : Padded (c :: t) q) (hc : isSpace c = false)
    (r : List Char) : ∃ b', Blanks b' ∧ skipSpace (q ++ r) = c :: t ++ (b' ++ r) := by
  obtain ⟨b, b', hb, hb', rfl⟩ := hq
  refine ⟨b', hb', ?_⟩
  rw [List.append_assoc, skipSpace_blanks hb, List.cons_append, List.cons_append, skipSpace_cons hc, List.cons_append,
    List.append_assoc]

theorem first?_padded {t q : List Char} {c : Char} (hq : Padded (c :: t) q) (hc : isSpace c = false) (r : List Char) :
    first? (q ++ r) = some c := by
  obtain ⟨b', -, h⟩ := skipSpace_padded hq hc r
  rw [first?, h]
  rfl

/-! ## Characters -/

theorem not_isAlphanum_of_isSpace {c : Char} (h : isSpace c = true) : c.isAlphanum = false := by
  simp only [isSpace, Bool.or_eq_true, beq_iff_eq] at h
  rcases h with ((rfl | rfl) | rfl) | rfl <;> rfl

theorem not_isSpace_of_isAlphanum {c : Char} (h : c.isAlphanum = true) : isSpace c = false := by
  cases hc : isSpace c with
  | false => rfl
  | true => rw [not_isAlphanum_of_isSpace hc] at h; cases h

theorem isAlphanum_of_isDigit {c : Char} (h : c.isDigit = true) : c.isAlphanum = true := by
  simp [Char.isAlphanum, h]

theorem isAlphanum_of_isAlpha {c : Char} (h : c.isAlpha = true) : c.isAlphanum = true := by
  simp [Char.isAlphanum, h]

/-- a character that an item can begin with -/
def starts (c : Char) : Bool := c.isAlphanum || c == '*' || c == '?'

theorem starts_of_isAlphanum {c : Char} (h : c.isAlphanum = true) : starts c = true := by
  simp [starts, h]

/-! ## Where a text ends -/

/-- the characters are of one number or of one name, where they stand side by side -/
def joins (c d : Char) : Bool := c.isDigit && d.isDigit || c.isAlpha && d.isAlpha

/-- the characters that satisfy `p` are just those that go on with one of them -/
def IsKind (p : Char → Bool) : Prop := ∀ c, p c = true → ∀ d, joins c d = p d

theorem isKind_isDigit : IsKind Char.isDigit := by
  intro c hc d
  have halpha : c.isAlpha = false := by
    cases h : c.isAlpha with
    | false => rfl
    | true => rw [not_isDigit_of_isAlpha h] at hc; cases hc
  simp [joins, hc, halpha]

theorem isKind_isAlpha : IsKind Char.isAlpha := by
  intro c hc d
  simp [joins, hc, not_isDigit_of_isAlpha hc]

theorem joins_eq_false_of_left {c : Char} (h : c.isAlphanum = false) (d : Char) : joins c d = false := by
  simp only [Char.isAlphanum, Bool.or_eq_false_iff] at h
  simp [joins, h]

theorem joins_eq_false_of_right {d : Char} (h : d.isAlphanum = false) (c : Char) : joins c d = false := by
  simp only [Char.isAlphanum, Bool.or_eq_false_iff] at h
  simp [joins, h]

theorem IsKind.isAlphanum {p : Char → Bool} (hp : IsKind p) {c : Char} (hc : p c = true) : c.isAlphanum = true := by
  cases h : c.isAlphanum with
  | true => rfl
  | false =>
    have := hp c hc c
    rw [joins_eq_false_of_left h, hc] at this
    cases this

/-- no number and no name goes on from the end of `q` into `r` -/
def Apart (q r : List Char) : Prop := ∀ c ∈ q.getLast?, ∀ d ∈ r.head?, joins c d = false

theorem apart_nil (q : List Char) : Apart q [] := fun _ _ _ hd => by cases hd

theorem apart_append {p q r : List Char} (hq : q ≠ []) : Apart (p ++ q) r ↔ Apart q r := by
  rw [Apart, Apart, List.getLast?_append_of_ne_nil p hq]

theorem apart_append_right {p q r : List Char} (hq : q ≠ []) : Apart p (q ++ r) ↔ Apart p q := by
  rw [Apart, Apart, List.head?_append_of_ne_nil q hq]

theorem apart_of_head {q r : List Char} (h : ∀ d ∈ r.head?, d.isAlphanum = false) : Apart q r :=
  fun c _ d hd => joins_eq_false_of_right (h d hd) c

/-- a text that ends with a blank or a sign is apart from every other -/
theorem apart_of_getLast {q r : List Char} (h : ∀ c ∈ q.getLast?, c.isAlphanum = false) : Apart q r :=
  fun c hc d _ => joins_eq_false_of_left (h c hc) d

/-- nothing goes on from the end of `q` into `r`: no number and no name, nor anything that one of the signs continues -/
structure Ends (signs q r : List Char) : Prop where
  apart : Apart q r
  sign : ∀ c, first? r = some c → c ∉ signs

theorem Ends.mono {signs signs' q r : List Char} (h : Ends signs q r) (hs : signs' ⊆ signs) : Ends signs' q r :=
  ⟨h.apart, fun c hc hmem => h.sign c hc (hs hmem)⟩

/-- what goes on from the end of a text is what goes on from the last part of it -/
theorem Ends.of_append {signs p q r : List Char} (h : Ends signs (p ++ q) r) (hq : q ≠ []) : Ends signs q r :=
  ⟨(apart_append hq).1 h.apart, h.sign⟩

theorem ends_nil (signs q : List Char) : Ends signs q [] where
  apart := apart_nil q
  sign _ h := by cases h

/-! ## Signs, numbers and names -/

/-- a run of characters that satisfy `p`, with blanks on both sides -/
structure IsRun (p : Char → Bool) (t q : List Char) : Prop where
  padded : Padded t q
  ne_nil : t ≠ []
  all : ∀ c ∈ t, p c = true

/-- the sign `x` with blanks on both sides -/
def IsSign (x : Char) (q : List Char) : Prop := Padded [x] q

/-- the number `n` in digits -/
def IsNumber (n : Nat) (q : List Char) : Prop := ∃ t, IsRun Char.isDigit t q ∧ readUnsigned? 10 maxNumber t = some n

/-- the name `t` in letters -/
def IsName (t q : List Char) : Prop := IsRun Char.isAlpha t q

section Run

variable {p : Char → Bool}

theorem IsRun.first {t q : List Char} (h : IsRun p t q) (hp : IsKind p) (r : List Char) :
    ∃ c, first? (q ++ r) = some c ∧ p c = true := by
  obtain ⟨hq, hne, hall⟩ := h
  obtain ⟨c, t, rfl⟩ := List.exists_cons_of_ne_nil hne
  have hc := hall c List.mem_cons_self
  exact ⟨c, first?_padded hq (not_isSpace_of_isAlphanum (hp.isAlphanum hc)) r, hc⟩

theorem IsRun.ne_nil_text {t q : List Char} (h : IsRun p t q) : q ≠ [] := by
  obtain ⟨b, b', -, -, rfl⟩ := h.padded
  simp [h.ne_nil]

/-- a run is apart from `r` just if blanks stand behind it or it does not go on in `r` -/
theorem apart_run_iff (hp : IsKind p) {b t b' r : List Char} (hne : t ≠ []) (hall : ∀ c ∈ t, p c = true)
    (hb' : Blanks b') : Apart (b ++ (t ++ b')) r ↔ b' = [] → ∀ d ∈ r.head?, p d = false := by
  by_cases hb : b' = []
  · subst hb
    obtain ⟨c, hc⟩ := Option.ne_none_iff_exists'.1 (mt List.getLast?_eq_none_iff.1 hne)
    rw [List.append_nil, apart_append hne, Apart, hc]
    simp [hp c (hall c (List.mem_of_getLast? hc))]
  · rw [← List.append_assoc, apart_append hb]
    refine iff_of_true (apart_of_getLast fun c hc => ?_) (fun h => absurd h hb)
    exact not_isAlphanum_of_isSpace (hb' c (List.mem_of_getLast? hc))

theorem token?_sound (hp : IsKind p) {s t r : List Char} (h : token? p s = some (t, r)) :
    ∃ q, IsRun p t q ∧ s = q ++ r ∧ skipSpace r = r ∧ Apart q r := by
  unfold token? at h
  simp only at h
  split at h
  · cases h
  · next hne =>
    cases h
    obtain ⟨b, hb, hs⟩ := exists_skipSpace s
    obtain ⟨b', hb', hr⟩ := exists_skipSpace ((skipSpace s).dropWhile p)
    have hne : (skipSpace s).takeWhile p ≠ [] := by simpa using hne
    have hall : ∀ c ∈ (skipSpace s).takeWhile p, p c = true := fun c hc => List.mem_takeWhile_imp hc
    refine ⟨b ++ ((skipSpace s).takeWhile p ++ b'), ⟨⟨b, b', hb, hb', rfl⟩, hne, hall⟩, ?_, skipSpace_skipSpace _, ?_⟩
    · rw [List.append_assoc, List.append_assoc, ← hr, List.takeWhile_append_dropWhile, ← hs]
    · refine (apart_run_iff hp hne hall hb').2 fun hnil d hd => ?_
      rw [hnil, List.nil_append] at hr
      rw [← hr] at hd
      have := List.head?_dropWhile_not p (skipSpace s)
      rw [Option.mem_def.1 hd] at this
      exact this

theorem token?_complete (hp : IsKind p) {t q : List Char} (h : IsRun p t q) {r : List Char} (hr : Apart q r) :
    token? p (q ++ r) = some (t, skipSpace r) := by
  obtain ⟨⟨b, b', hb, hb', rfl⟩, hne, hall⟩ := h
  have hhead : ∀ c ∈ (b' ++ r).head?, p c = false := by
    intro c hc
    cases b' with
    | nil => exact (apart_run_iff hp hne hall hb').1 hr rfl c hc
    | cons d b' =>
      cases hc
      have hspace := not_isAlphanum_of_isSpace (hb' c List.mem_cons_self)
      cases hpc : p c with
      | false => rfl
      | true => rw [hp.isAlphanum hpc] at hspace; cases hspace
  have hrest : (b' ++ r).takeWhile p = [] ∧ (b' ++ r).dropWhile p = b' ++ r := by
    cases hl : b' ++ r with
    | nil => exact ⟨rfl, rfl⟩
    | cons d l => simp [hhead d (by rw [hl]; rfl)]
  have hs : skipSpace (b ++ (t ++ b') ++ r) = t ++ (b' ++ r) := by
    obtain ⟨c, t, rfl⟩ := List.exists_cons_of_ne_nil hne
    have hc := not_isSpace_of_isAlphanum (hp.isAlphanum (hall c List.mem_cons_self))
    rw [List.append_assoc, List.append_assoc, skipSpace_blanks hb, List.cons_append, skipSpace_cons hc]
  unfold token?
  simp only [hs, List.takeWhile_append_of_pos hall, List.dropWhile_append_of_pos hall, hrest, List.append_nil,
    List.isEmpty_iff, hne, if_false, skipSpace_blanks hb']

theorem token?_eq_none_of_first {c : Char} {s : List Char} (h : first? s = some c) (hc : p c = false) :
    token? p s = none := by
  rw [first?, List.head?_eq_some_iff] at h
  obtain ⟨l, hl⟩ := h
  simp [token?, hl, hc]

end Run

theorem sign?_sound {x : Char} {s r : List Char} (h : sign? x s = some r) :
    ∃ q, IsSign x q ∧ s = q ++ r ∧ skipSpace r = r := by
  obtain ⟨b, hb, hs⟩ := exists_skipSpace s
  unfold sign? at h
  split at h
  · next c l hc =>
    split at h
    · next hx =>
      cases h
      obtain ⟨b', hb', hl⟩ := exists_skipSpace l
      have hx : c = x := by simpa using hx
      refine ⟨b ++ ([x] ++ b'), ⟨b, b', hb, hb', rfl⟩, ?_, skipSpace_skipSpace _⟩
      rw [List.append_assoc, List.append_assoc, ← hl, List.singleton_append, ← hx, ← hc, ← hs]
    · cases h
  · cases h

theorem sign?_complete {x : Char} (hx : isSpace x = false) {q : List Char} (h : IsSign x q) (r : List Char) :
    sign? x (q ++ r) = some (skipSpace r) := by
  obtain ⟨b', hb', hs⟩ := skipSpace_padded h hx r
  simp only [sign?, hs, List.cons_append, List.nil_append, beq_self_eq_true, if_true, skipSpace_blanks hb']

theorem Ends.sign?_eq_none {signs q r : List Char} (h : Ends signs q r) {x : Char} (hx : x ∈ signs) :
    sign? x r = none := by
  unfold sign?
  split
  · next c l hc =>
    have hne : c ≠ x := by
      rintro rfl
      exact h.sign c (by rw [first?, hc]; rfl) hx
    rw [if_neg (by simpa using hne)]
  · rfl

theorem sign?_eq_none_of_first {x c : Char} {s : List Char} (h : first? s = some c) (hc : c ≠ x) : sign? x s = none := by
  rw [first?, List.head?_eq_some_iff] at h
  obtain ⟨l, hl⟩ := h
  simp [sign?, hl, hc]

@[simp] theorem sign?_skipSpace (x : Char) (s : List Char) : sign? x (skipSpace s) = sign? x s := by
  rw [sign?, skipSpace_skipSpace, sign?]

theorem ends_cons {x : Char} (hspace : isSpace x = false) (halnum : x.isAlphanum = false) {signs : List Char}
    (hsigns : x ∉ signs) (q r : List Char) : Ends signs q (x :: r) := by
  constructor
  · refine apart_of_head ?_
    rintro c ⟨⟩
    exact halnum
  · intro c hc
    rw [first?, skipSpace_cons hspace] at hc
    cases hc
    exact hsigns

theorem IsSign.ne_nil {x : Char} {q : List Char} (h : IsSign x q) : q ≠ [] := by
  obtain ⟨b, b', -, -, rfl⟩ := h
  simp

theorem IsSign.not_isAlphanum {x : Char} {q : List Char} (h : IsSign x q) (hx : x.isAlphanum = false) :
    ∀ c ∈ q, c.isAlphanum = false := by
  obtain ⟨b, b', hb, hb', rfl⟩ := h
  intro c hc
  rcases List.mem_append.1 hc with hc | hc
  · exact not_isAlphanum_of_isSpace (hb c hc)
  · rcases List.mem_append.1 hc with hc | hc
    · rwa [List.mem_singleton.1 hc]
    · exact not_isAlphanum_of_isSpace (hb' c hc)

/-- no number and no name goes on into a sign -/
theorem IsSign.apart_append {x : Char} {q : List Char} (h : IsSign x q) (hx : x.isAlphanum = false) (p r : List Char) :
    Apart p (q ++ r) :=
  (apart_append_right h.ne_nil).2 (apart_of_head fun c hc => h.not_isAlphanum hx c (List.mem_of_mem_head? hc))

/-- none goes on from a sign -/
theorem IsSign.apart {x : Char} {q : List Char} (h : IsSign x q) (hx : x.isAlphanum = false) (r : List Char) :
    Apart q r :=
  apart_of_getLast fun c hc => h.not_isAlphanum hx c (List.mem_of_getLast? hc)

/-- what a sign begins does not go on with what stands in front, but for that sign -/
theorem IsSign.ends {x : Char} {q : List Char} (h : IsSign x q) (hspace : isSpace x = false)
    (halnum : x.isAlphanum = false) {signs : List Char} (hsigns : x ∉ signs) (p r : List Char) :
    Ends signs p (q ++ r) := by
  constructor
  · exact h.apart_append halnum p r
  · intro c hc
    rw [first?_padded h hspace r] at hc
    cases hc
    exact hsigns

/-! ## Readers and forms -/

/-- `reader` reads just the texts of a form, none of them empty, whole with the blanks behind them, where nothing goes
on; it never stops within a number or a name -/
structure Reads {α : Type} (signs : List Char) (form : α → List Char → Prop)
    (reader : List Char → Option (α × List Char)) : Prop where
  ne_nil : ∀ {q : List Char} {x : α}, form x q → q ≠ []
  sound : ∀ {s r : List Char} {x : α}, reader s = some (x, r) →
    ∃ q, form x q ∧ s = q ++ r ∧ skipSpace r = r ∧ Apart q r
  complete : ∀ {q r : List Char} {x : α}, form x q → Ends signs q r → reader (q ++ r) = some (x, skipSpace r)
  skips : ∀ s, reader (skipSpace s) = reader s

theorem reads_number : Reads [] IsNumber number? where
  ne_nil := by
    rintro q n ⟨t, ht, -⟩
    exact ht.ne_nil_text
  sound := by
    intro s r n h
    unfold number? at h
    split at h
    · next digits rest ht =>
      obtain ⟨m, hm, he⟩ := Option.map_eq_some_iff.1 h
      cases he
      obtain ⟨q, hq, hs⟩ := token?_sound isKind_isDigit ht
      exact ⟨q, ⟨digits, hq, hm⟩, hs⟩
    · cases h
  complete := by
    intro q r n h hr
    obtain ⟨t, ht, hn⟩ := h
    rw [number?, token?_complete isKind_isDigit ht hr.apart]
    simp only [hn, Option.map_some]
  skips s := by rw [number?, number?, token?, token?, skipSpace_skipSpace]

theorem reads_name : Reads [] IsName name? where
  ne_nil h := IsRun.ne_nil_text h
  sound h := token?_sound isKind_isAlpha h
  complete h hr := token?_complete isKind_isAlpha h hr.apart
  skips s := by rw [name?, name?, token?, token?, skipSpace_skipSpace]

theorem number?_eq_none_of_first {c : Char} {s : List Char} (h : first? s = some c) (hc : c.isDigit = false) :
    number? s = none := by
  rw [number?, token?_eq_none_of_first h hc]

/-- two things of one form with a hyphen between them -/
def IsPair {α : Type} (form : α → List Char → Prop) (x : α × α) (w : List Char) : Prop :=
  ∃ p q r, form x.1 p ∧ IsSign '-' q ∧ form x.2 r ∧ w = p ++ (q ++ r)

theorem reads_pair {α : Type} {form : α → List Char → Prop} {thing? : List Char → Option (α × List Char)}
    (h : Reads [] form thing?) : Reads [] (IsPair form) (pair? thing?) where
  ne_nil := by
    rintro w x ⟨p, q, t, hp, -, -, rfl⟩
    exact List.append_ne_nil_of_left_ne_nil (h.ne_nil hp) _
  sound := by
    intro s r x hs
    unfold pair? at hs
    simp only [Option.bind_eq_bind, Option.bind_eq_some_iff] at hs
    obtain ⟨⟨a, s1⟩, ha, s2, hsign, ⟨b, s3⟩, hb, hx⟩ := hs
    cases hx
    obtain ⟨p, hp, rfl, -⟩ := h.sound ha
    obtain ⟨q, hq, rfl, -⟩ := sign?_sound hsign
    obtain ⟨t, ht, rfl, hr, hapart⟩ := h.sound hb
    refine ⟨p ++ (q ++ t), ⟨p, q, t, hp, hq, ht, rfl⟩, by simp only [List.append_assoc], hr, ?_⟩
    rwa [← List.append_assoc, apart_append (h.ne_nil ht)]
  complete := by
    intro w r x hw hr
    obtain ⟨p, q, t, hp, hq, ht, rfl⟩ := hw
    have hends : Ends [] p (q ++ (t ++ r)) := hq.ends (by decide) (by decide) (by decide) _ _
    rw [← List.append_assoc] at hr
    rw [List.append_assoc, List.append_assoc, pair?, h.complete hp hends]
    simp only [Option.bind_eq_bind, Option.bind_some, sign?_skipSpace, sign?_complete (by decide) hq, h.skips,
      h.complete ht (hr.of_append (h.ne_nil ht))]
    rfl
  skips s := by rw [pair?, pair?, h.skips]

theorem pair?_eq_none_of_none {α : Type} {thing? : List Char → Option (α × List Char)} {s : List Char}
    (h : thing? s = none) : pair? thing? s = none := by
  rw [pair?, h]
  rfl

/-- no pair where no hyphen follows -/
theorem pair?_eq_none {α : Type} {thing? : List Char → Option (α × List Char)} {s q r : List Char} {x : α}
    (h : thing? s = some (x, skipSpace r)) (hr : Ends ['-'] q r) : pair? thing? s = none := by
  simp [pair?, h, hr.sign?_eq_none List.mem_cons_self]

/-! ## Spans and items -/

/-- the texts of a span -/
inductive IsSpan : Span → List Char → Prop where
  | all {q} : IsSign '*' q → IsSpan .all q
  | range {a b q} : IsPair IsNumber (a, b) q → IsSpan (.range a b) q
  | point {n q} : IsNumber n q → IsSpan (.point n) q
  | names {a b q} : IsPair IsName (a, b) q → IsSpan (.names a b) q

/-- the texts of a span where the question mark may stand for everything -/
inductive IsWide (any : Bool) : Span → List Char → Prop where
  | any {q} : any = true → IsSign '?' q → IsWide any .all q
  | span {s q} : IsSpan s q → IsWide any s q

/-- the texts of an item -/
inductive IsItem (any : Bool) : Item → List Char → Prop where
  | stepped {s n p q r} : IsWide any s p → IsSign '/' q → IsNumber n r → IsItem any (.stepped s n) (p ++ (q ++ r))
  | span {s q} : IsWide any s q → IsItem any (.span s) q
  | name {t q} : IsName t q → IsItem any (.name t) q

/-- the texts of a list of items -/
inductive IsItems (any : Bool) : List Item → List Char → Prop where
  | one {x q} : IsItem any x q → IsItems any [x] q
  | more {x xs p q} : IsItem any x p → IsItems any xs q → IsItems any (x :: xs) (p ++ ',' :: q)

theorem ne_nil_of_first? {q : List Char} {P : Char → Prop} (h : ∃ c, first? (q ++ []) = some c ∧ P c) : q ≠ [] := by
  rintro rfl
  obtain ⟨c, hc, -⟩ := h
  cases hc

theorem IsNumber.first {n : Nat} {q : List Char} (h : IsNumber n q) (r : List Char) :
    ∃ c, first? (q ++ r) = some c ∧ c.isDigit = true := by
  obtain ⟨t, ht, -⟩ := h
  exact ht.first isKind_isDigit r

theorem IsName.first {t q : List Char} (h : IsName t q) (r : List Char) :
    ∃ c, first? (q ++ r) = some c ∧ c.isAlpha = true :=
  IsRun.first h isKind_isAlpha r

theorem IsSign.first {x : Char} {q : List Char} (h : IsSign x q) (hx : isSpace x = false) (r : List Char) :
    first? (q ++ r) = some x :=
  first?_padded h hx r

theorem IsPair.first {α : Type} {form : α → List Char → Prop} {p : Char → Bool}
    (hform : ∀ {a q}, form a q → ∀ r, ∃ c, first? (q ++ r) = some c ∧ p c = true) {x : α × α} {w : List Char}
    (h : IsPair form x w) (r : List Char) : ∃ c, first? (w ++ r) = some c ∧ p c = true := by
  obtain ⟨q, s, t, hq, -, -, rfl⟩ := h
  rw [List.append_assoc]
  exact hform hq _

/-- the first character of a span: the star, a digit or a letter -/
theorem IsSpan.first {s : Span} {q : List Char} (h : IsSpan s q) (r : List Char) :
    ∃ c, first? (q ++ r) = some c ∧ (c = '*' ∨ c.isAlphanum = true) := by
  cases h with
  | all hq => exact ⟨'*', hq.first (by decide) r, .inl rfl⟩
  | range hq =>
    obtain ⟨c, hc, hd⟩ := hq.first (fun h => h.first) r
    exact ⟨c, hc, .inr (isAlphanum_of_isDigit hd)⟩
  | point hq =>
    obtain ⟨c, hc, hd⟩ := hq.first r
    exact ⟨c, hc, .inr (isAlphanum_of_isDigit hd)⟩
  | names hq =>
    obtain ⟨c, hc, hd⟩ := hq.first (fun h => h.first) r
    exact ⟨c, hc, .inr (isAlphanum_of_isAlpha hd)⟩

theorem IsWide.first {any : Bool} {s : Span} {q : List Char} (h : IsWide any s q) (r : List Char) :
    ∃ c, first? (q ++ r) = some c ∧ starts c = true := by
  cases h with
  | any _ hq => exact ⟨'?', hq.first (by decide) r, by decide⟩
  | span hs =>
    obtain ⟨c, hc, rfl | hd⟩ := hs.first r
    · exact ⟨'*', hc, by decide⟩
    · exact ⟨c, hc, starts_of_isAlphanum hd⟩

theorem IsItem.first {any : Bool} {x : Item} {q : List Char} (h : IsItem any x q) (r : List Char) :
    ∃ c, first? (q ++ r) = some c ∧ starts c = true := by
  cases h with
  | @stepped s n p q t hp hq ht =>
    obtain ⟨c, hc, hd⟩ := hp.first ((q ++ t) ++ r)
    exact ⟨c, by rw [List.append_assoc, hc], hd⟩
  | span hs => exact hs.first r
  | name ht =>
    obtain ⟨c, hc, hd⟩ := ht.first r
    exact ⟨c, hc, starts_of_isAlphanum (isAlphanum_of_isAlpha hd)⟩

theorem IsItems.first {any : Bool} {xs : List Item} {q : List Char} (h : IsItems any xs q) (r : List Char) :
    ∃ c, first? (q ++ r) = some c ∧ starts c = true := by
  cases h with
  | one hx => exact hx.first r
  | @more x xs p q hx hxs =>
    obtain ⟨c, hc, hd⟩ := hx.first ((',' :: q) ++ r)
    exact ⟨c, by rw [List.append_assoc, hc], hd⟩

/-! ## What is read -/

theorem reads_span : Reads ['-'] IsSpan span? where
  ne_nil h := ne_nil_of_first? (h.first [])
  sound := by
    intro s r x h
    simp only [span?, Option.orElse_eq_orElse, Option.orElse_eq_or, Option.or_eq_some_iff, Option.map_eq_some_iff,
      Prod.mk.injEq] at h
    rcases h with ⟨r', h, rfl, rfl⟩ | ⟨-, ⟨y, h, rfl, rfl⟩ | ⟨-, ⟨y, h, rfl, rfl⟩ | ⟨-, y, h, rfl, rfl⟩⟩⟩
    · obtain ⟨q, hq, hs, hr⟩ := sign?_sound h
      exact ⟨q, .all hq, hs, hr, hq.apart (by decide) _⟩
    · obtain ⟨q, hq, hs⟩ := (reads_pair reads_number).sound h
      exact ⟨q, .range hq, hs⟩
    · obtain ⟨q, hq, hs⟩ := reads_number.sound h
      exact ⟨q, .point hq, hs⟩
    · obtain ⟨q, hq, hs⟩ := (reads_pair reads_name).sound h
      exact ⟨q, .names hq, hs⟩
  complete := by
    intro q r x h hr
    have hends : Ends [] q r := hr.mono (List.nil_subset _)
    cases h with
    | all hq => simp [span?, sign?_complete (by decide) hq]
    | range hq =>
      obtain ⟨c, hc, hd⟩ := hq.first (fun h => h.first) r
      have hstar : sign? '*' (q ++ r) = none := sign?_eq_none_of_first hc (by rintro rfl; cases hd)
      simp [span?, hstar, (reads_pair reads_number).complete hq hends]
    | point hq =>
      obtain ⟨c, hc, hd⟩ := hq.first r
      have hstar : sign? '*' (q ++ r) = none := sign?_eq_none_of_first hc (by rintro rfl; cases hd)
      have hpair : pair? number? (q ++ r) = none := pair?_eq_none (reads_number.complete hq hends) hr
      simp [span?, hstar, hpair, reads_number.complete hq hends]
    | names hq =>
      obtain ⟨c, hc, hd⟩ := hq.first (fun h => h.first) r
      have hstar : sign? '*' (q ++ r) = none := sign?_eq_none_of_first hc (by rintro rfl; cases hd)
      have hnumber : number? (q ++ r) = none := number?_eq_none_of_first hc (not_isDigit_of_isAlpha hd)
      simp [span?, hstar, hnumber, pair?_eq_none_of_none hnumber, (reads_pair reads_name).complete hq hends]
  skips s := by simp only [span?, sign?_skipSpace, (reads_pair reads_number).skips, reads_number.skips,
    (reads_pair reads_name).skips]

theorem reads_wide (any : Bool) : Reads ['-'] (IsWide any) (spanOrAny? any) where
  ne_nil h := ne_nil_of_first? (h.first [])
  sound := by
    intro s r x h
    simp only [spanOrAny?, Option.orElse_eq_orElse, Option.orElse_eq_or, Option.or_eq_some_iff] at h
    rcases h with h | ⟨-, h⟩
    · split at h
      · next hany =>
        obtain ⟨r', h, he⟩ := Option.map_eq_some_iff.1 h
        cases he
        obtain ⟨q, hq, hs, hr⟩ := sign?_sound h
        exact ⟨q, .any hany hq, hs, hr, hq.apart (by decide) _⟩
      · cases h
    · obtain ⟨q, hq, hs⟩ := reads_span.sound h
      exact ⟨q, .span hq, hs⟩
  complete := by
    intro q r x h hr
    cases h with
    | any hany hq => simp [spanOrAny?, hany, sign?_complete (by decide) hq]
    | span hq =>
      obtain ⟨c, hc, hd⟩ := hq.first r
      have hquestion : sign? '?' (q ++ r) = none := by
        refine sign?_eq_none_of_first hc ?_
        rintro rfl
        rcases hd with hd | hd <;> cases hd
      simp [spanOrAny?, hquestion, reads_span.complete hq hr]
  skips s := by simp only [spanOrAny?, sign?_skipSpace, reads_span.skips]

/-- a name by itself is no span -/
theorem spanOrAny?_eq_none {any : Bool} {t q r : List Char} (h : IsName t q) (hr : Ends ['-'] q r) :
    spanOrAny? any (q ++ r) = none := by
  obtain ⟨c, hc, hd⟩ := h.first r
  have hstar : sign? '*' (q ++ r) = none := sign?_eq_none_of_first hc (by rintro rfl; cases hd)
  have hquestion : sign? '?' (q ++ r) = none := sign?_eq_none_of_first hc (by rintro rfl; cases hd)
  have hnumber : number? (q ++ r) = none := number?_eq_none_of_first hc (not_isDigit_of_isAlpha hd)
  have hname : pair? name? (q ++ r) = none := pair?_eq_none (reads_name.complete h (hr.mono (List.nil_subset _))) hr
  simp [spanOrAny?, span?, hstar, hquestion, hnumber, pair?_eq_none_of_none hnumber, hname]

theorem reads_item (any : Bool) : Reads ['-', '/'] (IsItem any) (item? any) where
  ne_nil h := ne_nil_of_first? (h.first [])
  sound := by
    intro s r x h
    simp only [item?, Option.bind_eq_bind, Option.orElse_eq_orElse, Option.orElse_eq_or, Option.or_eq_some_iff,
      Option.bind_eq_some_iff, Option.map_eq_some_iff] at h
    rcases h with ⟨⟨y, r1⟩, hy, r2, hsign, ⟨n, r3⟩, hn, he⟩ | ⟨-, ⟨⟨y, r1⟩, h, he⟩ | ⟨-, ⟨t, r1⟩, h, he⟩⟩
    · cases he
      obtain ⟨p, hp, rfl, -⟩ := (reads_wide any).sound hy
      obtain ⟨q, hq, rfl, -⟩ := sign?_sound hsign
      obtain ⟨t, ht, rfl, hr, hapart⟩ := reads_number.sound hn
      refine ⟨p ++ (q ++ t), .stepped hp hq ht, by simp only [List.append_assoc], hr, ?_⟩
      rwa [← List.append_assoc, apart_append (reads_number.ne_nil ht)]
    · cases he
      obtain ⟨q, hq, hs⟩ := (reads_wide any).sound h
      exact ⟨q, .span hq, hs⟩
    · cases he
      obtain ⟨q, hq, hs⟩ := reads_name.sound h
      exact ⟨q, .name hq, hs⟩
  complete := by
    intro q r x h hr
    have hhyphen : Ends ['-'] q r := hr.mono (by decide)
    have hends : Ends [] q r := hr.mono (List.nil_subset _)
    cases h with
    | @stepped y n p q t hp hq ht =>
      have hslash : Ends ['-'] p (q ++ (t ++ r)) := hq.ends (by decide) (by decide) (by decide) _ _
      rw [← List.append_assoc] at hends
      rw [List.append_assoc, List.append_assoc, item?, (reads_wide any).complete hp hslash]
      simp [sign?_complete (by decide) hq, reads_number.skips,
        reads_number.complete ht (hends.of_append (reads_number.ne_nil ht))]
    | span hq =>
      have hslash : sign? '/' r = none := hr.sign?_eq_none (by decide)
      simp [item?, (reads_wide any).complete hq hhyphen, hslash]
    | name hq => simp [item?, spanOrAny?_eq_none hq hhyphen, reads_name.complete hq hends]
  skips s := by simp only [item?, (reads_wide any).skips, reads_name.skips]

/-! ## Lists of items -/

/-- further items go on a list -/
theorem isItems_moreItems {any : Bool} {x : Item} {p s : List Char} (hx : IsItem any x p) (hs : skipSpace s = s)
    (hps : Apart p s) :
    ∃ q, IsItems any (x :: (moreItems any s).1) (p ++ q) ∧ s = q ++ (moreItems any s).2 ∧
      skipSpace (moreItems any s).2 = (moreItems any s).2 ∧ Apart (p ++ q) (moreItems any s).2 := by
  fun_induction moreItems any s generalizing x p with
  | case1 r y rest hy hlt items rest' he ih =>
    obtain ⟨q, hq, rfl, hrest, hapart⟩ := (reads_item any).sound hy
    obtain ⟨q', hq', hs', hr', hapart'⟩ := ih hq hrest hapart
    rw [he] at hq' hs' hr' hapart'
    refine ⟨',' :: (q ++ q'), .more hx hq', ?_, hr', ?_⟩
    · rw [hs', List.cons_append, List.append_assoc]
    · have hne : q ++ q' ≠ [] := List.append_ne_nil_of_left_ne_nil ((reads_item any).ne_nil hq) q'
      rwa [List.append_cons, apart_append hne]
  | case2 | case3 | case4 =>
    exact ⟨[], by rw [List.append_nil]; exact .one hx, rfl, hs, by rwa [List.append_nil]⟩

/-- the items of a list as `items?` reads them -/
theorem item?_moreItems {any : Bool} {xs : List Item} {q r : List Char} (h : IsItems any xs q)
    (hr : Ends ['-', '/', ','] q r) :
    (item? any (q ++ r)).map (fun x => (x.1 :: (moreItems any x.2).1, (moreItems any x.2).2)) =
      some (xs, skipSpace r) := by
  induction h with
  | one hx =>
    rw [(reads_item any).complete hx (hr.mono (by decide)), Option.map_some]
    have hcomma : moreItems any (skipSpace r) = ([], skipSpace r) := by
      unfold moreItems
      split
      · next l hl => exact absurd (by decide) (hr.sign ',' (by rw [first?, hl]; rfl))
      · rfl
    rw [hcomma]
  | @more x xs p q hx hxs ih =>
    have hcomma : Ends ['-', '/'] p (',' :: (q ++ r)) := ends_cons (by decide) (by decide) (by decide) _ _
    have hq : q ≠ [] := ne_nil_of_first? (hxs.first [])
    rw [List.append_cons] at hr
    obtain ⟨⟨y, rest⟩, hy, he⟩ := Option.map_eq_some_iff.1 (ih (hr.of_append hq))
    obtain ⟨rfl, hrest⟩ := Prod.mk.injEq .. ▸ he
    obtain ⟨q', hq', hqr, -⟩ := (reads_item any).sound hy
    have hlt : rest.length < (q ++ r).length := by
      have := List.length_pos_iff.2 ((reads_item any).ne_nil hq')
      rw [hqr, List.length_append]
      omega
    rw [List.append_assoc, List.cons_append, (reads_item any).complete hx hcomma, Option.map_some,
      skipSpace_cons (by decide)]
    rw [moreItems, hy]
    simp only [hlt, if_true, hrest]

theorem reads_items (any : Bool) : Reads ['-', '/', ','] (IsItems any) (items? any) where
  ne_nil h := ne_nil_of_first? (h.first [])
  sound := by
    intro s r xs h
    rw [items?, (reads_item any).skips] at h
    obtain ⟨⟨x, rest⟩, hx, he⟩ := Option.map_eq_some_iff.1 h
    cases he
    obtain ⟨p, hp, rfl, hrest, hapart⟩ := (reads_item any).sound hx
    obtain ⟨q, hq, hs, hr, hapart'⟩ := isItems_moreItems hp hrest hapart
    refine ⟨p ++ q, hq, ?_, skipSpace_skipSpace _, by rwa [hr]⟩
    rw [hr, List.append_assoc, ← hs]
  complete := by
    intro q r xs h hr
    obtain ⟨⟨x, rest⟩, hx, he⟩ := Option.map_eq_some_iff.1 (item?_moreItems h hr)
    obtain ⟨rfl, hrest⟩ := Prod.mk.injEq .. ▸ he
    simp only [items?, (reads_item any).skips, hx, Option.map_some, hrest, skipSpace_skipSpace]
  skips s := by rw [items?, items?, skipSpace_skipSpace]

/-! ## One field -/

/-- the text is one field of its kind, with these values -/
def IsField (u : Unit) (q : List Char) (values : List Nat) : Prop :=
  ∃ items, IsItems (hasAny u) items q ∧ values? u items = some values

theorem reads_field (u : Unit) : Reads ['-', '/', ','] (fun values q => IsField u q values) (field? u) where
  ne_nil := by
    rintro q values ⟨items, hq, -⟩
    exact (reads_items _).ne_nil hq
  sound := by
    intro s r values h
    simp only [field?, Option.bind_eq_bind, Option.bind_eq_some_iff] at h
    obtain ⟨⟨items, rest⟩, hitems, values', hvalues, he⟩ := h
    cases he
    obtain ⟨q, hq, hs⟩ := (reads_items _).sound hitems
    exact ⟨q, ⟨items, hq, hvalues⟩, hs⟩
  complete := by
    intro q r values h hr
    obtain ⟨items, hq, hvalues⟩ := h
    simp [field?, (reads_items _).complete hq hr, hvalues]
  skips s := by rw [field?, field?, (reads_items _).skips]

/-- **A text is one field with given values just if the reader of the field reads the whole of it** -/
theorem field?_eq_some_iff {u : Unit} {q : List Char} {values : List Nat} :
    field? u q = some (values, []) ↔ IsField u q values := by
  constructor
  · intro h
    obtain ⟨q', hq, hs, -⟩ := (reads_field u).sound h
    rw [List.append_nil] at hs
    exact hs ▸ hq
  · intro h
    have := (reads_field u).complete h (ends_nil _ _)
    rwa [List.append_nil] at this

theorem IsField.first {u : Unit} {q : List Char} {values : List Nat} (h : IsField u q values) (r : List Char) :
    ∃ c, first? (q ++ r) = some c ∧ starts c = true := by
  obtain ⟨items, hq, -⟩ := h
  exact hq.first r

theorem IsField.starts_of_first? {u : Unit} {q : List Char} {values : List Nat} (h : IsField u q values) {r : List Char}
    {c : Char} (hc : first? (q ++ r) = some c) : starts c = true := by
  obtain ⟨d, hd, hstarts⟩ := h.first r
  rw [hd] at hc
  cases hc
  exact hstarts

end SheetPost.Cron.Grammar
