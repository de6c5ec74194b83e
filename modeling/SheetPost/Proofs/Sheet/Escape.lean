/-
Texts on their way into the table of texts and back: the escapes `_xHHHH_` and the entities of XML.

Main statements: a text that was escaped is read back as itself (`unescapeText_escapeText`, `resolve?_escape`), and
resolving entities first never makes what escapes leave longer (`length_unescapeText_resolve?_le`).
-/
import Mathlib.Data.List.TakeWhile
import SheetPost.Proofs.Text.Numeral
import SheetPost.Sheet.Cells
import SheetPost.Text.Search
import SheetPost.Text.Percent

namespace SheetPost.Sheet.SharedStrings

open SheetPost.Text

/-! ## One escape -/

theorem exists_of_readEscape? {s r : List Char} {d : Char} (h : readEscape? s = some (d, r)) :
    ∃ a b c e, s = '_' :: 'x' :: a :: b :: c :: e :: '_' :: r ∧ (∃ n, readDigits? 16 [a, b, c, e] = some n) ∧
      ∀ r', readEscape? ('_' :: 'x' :: a :: b :: c :: e :: '_' :: r') = some (d, r') := by
  unfold readEscape? at h
  split at h
  · next a b c e r =>
    obtain ⟨n, hn, he⟩ := Option.map_eq_some_iff.1 h
    cases he
    exact ⟨a, b, c, e, rfl, ⟨n, hn⟩, fun r' => by simp [readEscape?, hn]⟩
  · cases h

theorem readEscape?_eq_none {c : Char} (hc : c ≠ '_') (r : List Char) : readEscape? (c :: r) = none := by
  rw [Option.eq_none_iff_forall_ne_some]
  intro x hx
  obtain ⟨a, b, c', e, hs, -⟩ := exists_of_readEscape? (d := x.1) (r := x.2) hx
  cases hs
  exact hc rfl

theorem unescapeText_of_some {s r : List Char} {d : Char} (h : readEscape? s = some (d, r)) :
    unescapeText s = d :: unescapeText r := by
  obtain ⟨a, b, c, e, rfl, -, -⟩ := exists_of_readEscape? h
  rw [unescapeText, h]
  simp only [List.length_cons]
  rw [if_pos (by omega)]

theorem unescapeText_of_none {c : Char} {r : List Char} (h : readEscape? (c :: r) = none) :
    unescapeText (c :: r) = c :: unescapeText r := by
  rw [unescapeText, h]

theorem unescapeText_cons {c : Char} (hc : c ≠ '_') (r : List Char) : unescapeText (c :: r) = c :: unescapeText r :=
  unescapeText_of_none (readEscape?_eq_none hc r)

@[simp] theorem unescapeText_nil : unescapeText [] = [] := by rw [unescapeText]

theorem readDigits?_hexDigits {n : Nat} (h : n < 65536) :
    readDigits? 16 [hexDigit (n / 4096 % 16), hexDigit (n / 256 % 16), hexDigit (n / 16 % 16), hexDigit (n % 16)] =
      some n := by
  simp only [readDigits?, List.isEmpty_cons, Bool.false_eq_true, if_false, readDigitsFrom?,
    Percent.digitValue?_hexDigit (Nat.mod_lt _ (by decide : 0 < 16)), Option.bind_some, Option.some.injEq]
  omega

theorem unescapeText_escape {c : Char} (hc : c.toNat < 65536) (r : List Char) :
    unescapeText (escape c.toNat ++ r) = c :: unescapeText r := by
  refine unescapeText_of_some ?_
  simp only [escape, List.cons_append, List.nil_append, readEscape?, readDigits?_hexDigits hc, Option.map_some,
    Char.ofNat_toNat]

/-! ## Whole texts -/

/-- what does not begin with an underscore begins as the text does -/
theorem exists_of_escapeText_eq_cons {s t : List Char} {x : Char} (h : escapeText s = x :: t) (hx : x ≠ '_') :
    ∃ r, s = x :: r ∧ t = escapeText r := by
  cases s with
  | nil => cases h
  | cons c r =>
    rw [escapeText] at h
    split at h
    · cases h
      exact absurd rfl hx
    · split at h
      · cases h
        exact absurd rfl hx
      · cases h
        exact ⟨r, rfl, rfl⟩

theorem ne_underscore_of_digit {x : Char} (h : (digitValue? 16 x).isSome = true) : x ≠ '_' := by
  rintro rfl
  cases h

/-- what is left as it is does not look like an escape, whatever is escaped behind it -/
theorem readEscape?_escapeText_eq_none {r : List Char} (h : looksEscaped ('_' :: r) = false) :
    readEscape? ('_' :: escapeText r) = none := by
  rw [Option.eq_none_iff_forall_ne_some]
  intro x hx
  obtain ⟨a, b, c, e, hs, ⟨n, hn⟩, -⟩ := exists_of_readEscape? (d := x.1) (r := x.2) hx
  have hdigits := isSome_digitValue?_of_readDigits? hn
  have hne : ∀ y ∈ [a, b, c, e], y ≠ '_' := fun y hy => ne_underscore_of_digit (hdigits y hy)
  obtain ⟨r1, rfl, h1⟩ := exists_of_escapeText_eq_cons (List.cons.inj hs).2 (by decide)
  obtain ⟨r2, rfl, h2⟩ := exists_of_escapeText_eq_cons h1.symm (hne a (by simp))
  obtain ⟨r3, rfl, h3⟩ := exists_of_escapeText_eq_cons h2.symm (hne b (by simp))
  obtain ⟨r4, rfl, h4⟩ := exists_of_escapeText_eq_cons h3.symm (hne c (by simp))
  obtain ⟨r5, rfl, h5⟩ := exists_of_escapeText_eq_cons h4.symm (hne e (by simp))
  cases r5 with
  | nil => cases h5
  | cons y r6 =>
    have hlooks : looksEscaped ('_' :: 'x' :: a :: b :: c :: e :: y :: r6) = true := List.all_eq_true.2 hdigits
    rw [hlooks] at h
    cases h

theorem eq_underscore_of_looksEscaped {c : Char} {r : List Char} (h : looksEscaped (c :: r) = true) : c = '_' := by
  unfold looksEscaped at h
  split at h
  · next he => exact (List.cons.inj he).1
  · cases h

/-- **A text that was escaped is read back as itself** -/
theorem unescapeText_escapeText (s : List Char) : unescapeText (escapeText s) = s := by
  induction s with
  | nil => exact unescapeText_nil
  | cons c r ih =>
    rw [escapeText]
    split
    · next hc =>
      have hlt : c.toNat < 0x20 := by
        simp only [isControl, Bool.and_eq_true, decide_eq_true_eq] at hc
        exact hc.1.1
      rw [unescapeText_escape (by omega), ih]
    · split
      · next hlooks =>
        cases eq_underscore_of_looksEscaped hlooks
        rw [unescapeText_escape (by decide), ih]
      · next hlooks =>
        by_cases hc : c = '_'
        · subst hc
          rw [unescapeText_of_none (readEscape?_escapeText_eq_none (by simpa using hlooks)), ih]
        · rw [unescapeText_cons hc, ih]

/-! ## Texts in parts -/

/-- a character that stands in no escape -/
structure Apart (x : Char) : Prop where
  underscore : x ≠ '_'
  letter : x ≠ 'x'
  digit : digitValue? 16 x = none

theorem Apart.not_mem {x : Char} (hx : Apart x) {a b c e : Char} {n : Nat} (h : readDigits? 16 [a, b, c, e] = some n) :
    x ∉ ['_', 'x', a, b, c, e, '_'] := by
  have hdigits : x ∉ [a, b, c, e] := by
    intro hmem
    have := isSome_digitValue?_of_readDigits? h x hmem
    rw [hx.digit] at this
    cases this
  simp only [List.mem_cons, List.not_mem_nil, or_false, not_or] at hdigits ⊢
  exact ⟨hx.underscore, hx.letter, hdigits.1, hdigits.2.1, hdigits.2.2.1, hdigits.2.2.2, hx.underscore⟩

/-- an escape does not reach beyond a character that stands in none -/
theorem readEscape?_append_cons {x : Char} (hx : Apart x) {a : List Char} (ha : a ≠ []) (b : List Char) :
    readEscape? (a ++ x :: b) = (readEscape? a).map fun p => (p.1, p.2 ++ x :: b) := by
  cases h : readEscape? a with
  | some p =>
    obtain ⟨a', b', c, e, rfl, -, hr⟩ := exists_of_readEscape? (d := p.1) (r := p.2) h
    exact hr (p.2 ++ x :: b)
  | none =>
    rw [Option.map_none, Option.eq_none_iff_forall_ne_some]
    intro p hp
    obtain ⟨a', b', c, e, hs, ⟨n, hn⟩, hr⟩ := exists_of_readEscape? (d := p.1) (r := p.2) hp
    rcases List.append_eq_append_iff.1 (show a ++ x :: b = ['_', 'x', a', b', c, e, '_'] ++ p.2 from hs) with
      ⟨l, hl, hb⟩ | ⟨l, hl, -⟩
    · cases l with
      | nil =>
        rw [List.append_nil] at hl
        rw [← hl] at h
        cases h.symm.trans (hr [])
      | cons y l =>
        cases hb
        exact hx.not_mem hn (by rw [hl]; simp)
    · rw [hl] at h
      cases h.symm.trans (hr l)

/-- a character that stands in no escape divides a text -/
theorem unescapeText_append_cons {x : Char} (hx : Apart x) (a b : List Char) :
    unescapeText (a ++ x :: b) = unescapeText a ++ x :: unescapeText b := by
  fun_induction unescapeText a with
  | case1 => rw [List.nil_append, List.nil_append, unescapeText_cons hx.underscore]
  | case2 c r d rest hd _ ih =>
    have hescape := readEscape?_append_cons hx (List.cons_ne_nil c r) b
    rw [hd, Option.map_some] at hescape
    rw [unescapeText_of_some hescape, ih, List.cons_append]
  | case3 c r d rest hd hlt ih =>
    obtain ⟨a', b', c', e, hs, -, -⟩ := exists_of_readEscape? hd
    cases hs
    simp only [List.length_cons] at hlt
    omega
  | case4 c r hn ih =>
    have hescape := readEscape?_append_cons hx (List.cons_ne_nil c r) b
    rw [hn, Option.map_none, List.cons_append] at hescape
    rw [List.cons_append, unescapeText_of_none hescape, ih, List.cons_append]

/-- the letter and the digits of an escape begin no escape -/
theorem length_unescapeText_digits {a b c e : Char} {n : Nat} (h : readDigits? 16 [a, b, c, e] = some n)
    (r : List Char) : (unescapeText ('x' :: a :: b :: c :: e :: r)).length = (unescapeText r).length + 5 := by
  have hne : ∀ y ∈ [a, b, c, e], y ≠ '_' := fun y hy => ne_underscore_of_digit (isSome_digitValue?_of_readDigits? h y hy)
  rw [unescapeText_cons (by decide), unescapeText_cons (hne a (by simp)), unescapeText_cons (hne b (by simp)),
    unescapeText_cons (hne c (by simp)), unescapeText_cons (hne e (by simp))]
  rfl

/-- one more character in front makes at most one more: an escape that it completes takes others away -/
theorem length_unescapeText_cons_le (c : Char) (r : List Char) :
    (unescapeText (c :: r)).length ≤ (unescapeText r).length + 1 := by
  induction hn : r.length using Nat.strongRecOn generalizing c r with
  | _ n ih =>
    subst hn
    cases h : readEscape? (c :: r) with
    | none => rw [unescapeText_of_none h, List.length_cons]
    | some p =>
      obtain ⟨a, b, c', e, hs, ⟨m, hm⟩, -⟩ := exists_of_readEscape? (d := p.1) (r := p.2) h
      rw [unescapeText_of_some (d := p.1) (r := p.2) h, List.length_cons]
      cases hs
      rw [length_unescapeText_digits hm]
      -- the underscore at the end of the escape may have begun another one
      cases h' : readEscape? ('_' :: p.2) with
      | none =>
        rw [unescapeText_of_none h', List.length_cons]
        omega
      | some q =>
        obtain ⟨a', b', c'', e', hs', ⟨m', hm'⟩, -⟩ := exists_of_readEscape? (d := q.1) (r := q.2) h'
        rw [unescapeText_of_some (d := q.1) (r := q.2) h', List.length_cons]
        have hp : p.2 = 'x' :: a' :: b' :: c'' :: e' :: '_' :: q.2 := (List.cons.inj hs').2
        rw [hp, length_unescapeText_digits hm']
        have := ih q.2.length (by rw [hp]; simp only [List.length_cons]; omega) '_' q.2 rfl
        omega

/-! ## Entities -/

/-- what the entities have in common: they end in a semicolon, and none stands for an underscore -/
theorem entities_spec : ∀ p ∈ Token.entities, p.1.getLast? = some ';' ∧ 2 ≤ p.1.length ∧ p.2 ≠ '_' := by
  decide

theorem exists_of_entity? {s r : List Char} {c : Char} (h : Token.entity? s = some (c, r)) :
    ∃ body, s = body ++ ';' :: r ∧ body ≠ [] ∧ c ≠ '_' := by
  obtain ⟨p, hp, hr⟩ := List.exists_of_findSome?_eq_some h
  obtain ⟨hlast, hlength, hne⟩ := entities_spec p hp
  obtain ⟨rest, hrest, he⟩ := Option.map_eq_some_iff.1 hr
  cases he
  obtain ⟨body, hbody⟩ := List.getLast?_eq_some_iff.1 hlast
  refine ⟨body, ?_, ?_, hne⟩
  · rw [after?_eq_some hrest, hbody, List.append_assoc, List.singleton_append]
  · rintro rfl
    rw [hbody] at hlength
    simp at hlength

theorem resolve?_cons {c : Char} (hc : c ≠ '&') (r : List Char) :
    Token.resolve? (c :: r) = (Token.resolve? r).map (c :: ·) := by
  rw [Token.resolve?]
  rintro rfl
  exact hc rfl

theorem resolve?_entity {r rest : List Char} {c : Char} (h : Token.entity? ('&' :: r) = some (c, rest)) :
    Token.resolve? ('&' :: r) = (Token.resolve? rest).map (c :: ·) := by
  obtain ⟨body, hbody, hne, -⟩ := exists_of_entity? h
  have hlength := congrArg List.length hbody
  have := List.length_pos_iff.2 hne
  simp only [List.length_cons, List.length_append] at hlength
  rw [Token.resolve?]
  simp only [h]
  rw [if_pos (by omega)]

theorem resolve?_escape_cons (c : Char) (r : List Char) :
    Token.resolve? (Xml.escape c ++ r) = (Token.resolve? r).map (c :: ·) := by
  unfold Xml.escape
  split
  · exact resolve?_entity rfl
  · exact resolve?_entity rfl
  · exact resolve?_entity rfl
  · next hamp _ _ => exact resolve?_cons hamp r

/-- **An XML text is read back as itself** -/
theorem resolve?_escape (s : List Char) : Token.resolve? (s.flatMap Xml.escape) = some s := by
  induction s with
  | nil => rw [List.flatMap_nil, Token.resolve?]
  | cons c r ih => rw [List.flatMap_cons, resolve?_escape_cons, ih, Option.map_some]

theorem exists_of_resolve?_cons {c : Char} {r t : List Char} (h : Token.resolve? (c :: r) = some t) :
    (c ≠ '&' ∧ ∃ t', Token.resolve? r = some t' ∧ t = c :: t') ∨
      ∃ d rest t', Token.entity? (c :: r) = some (d, rest) ∧ Token.resolve? rest = some t' ∧ t = d :: t' := by
  by_cases hc : c = '&'
  · subst hc
    right
    cases he : Token.entity? ('&' :: r) with
    | none =>
      rw [Token.resolve?] at h
      simp only [he] at h
      cases h
    | some p =>
      rw [resolve?_entity (c := p.1) (r := r) he] at h
      obtain ⟨t', ht', rfl⟩ := Option.map_eq_some_iff.1 h
      exact ⟨p.1, p.2, t', rfl, ht', rfl⟩
  · rw [resolve?_cons hc] at h
    obtain ⟨t', ht', rfl⟩ := Option.map_eq_some_iff.1 h
    exact .inl ⟨hc, t', ht', rfl⟩

theorem resolve?_append {s : List Char} (hs : '&' ∉ s) (r : List Char) :
    Token.resolve? (s ++ r) = (Token.resolve? r).map (s ++ ·) := by
  induction s with
  | nil => simp
  | cons c s ih =>
    obtain ⟨hc, hs⟩ := not_or.1 (mt List.mem_cons.2 hs)
    rw [List.cons_append, resolve?_cons (fun e => hc e.symm), ih hs, Option.map_map]
    rfl

/-- resolving entities makes no more of a text than its escapes leave -/
theorem length_unescapeText_resolve?_le {s t : List Char} (h : Token.resolve? s = some t) :
    (unescapeText t).length ≤ (unescapeText s).length := by
  induction hn : s.length using Nat.strongRecOn generalizing s t with
  | _ n ih =>
    subst hn
    cases s with
    | nil =>
      rw [Token.resolve?] at h
      cases h
      exact Nat.le_refl _
    | cons c r =>
      cases hr : readEscape? (c :: r) with
      | some p =>
        obtain ⟨a, b, c', e, hs, ⟨m, hm⟩, hp⟩ := exists_of_readEscape? (d := p.1) (r := p.2) hr
        have hamp : '&' ∉ ['_', 'x', a, b, c', e, '_'] := Apart.not_mem ⟨by decide, by decide, by decide⟩ hm
        have hsplit : c :: r = ['_', 'x', a, b, c', e, '_'] ++ p.2 := hs
        have hlt : p.2.length < (c :: r).length := by
          rw [hsplit, List.length_append, List.length_cons]
          omega
        rw [hsplit, resolve?_append hamp] at h
        obtain ⟨t', ht', rfl⟩ := Option.map_eq_some_iff.1 h
        have ht := unescapeText_of_some (hp t')
        simp only [List.cons_append, List.nil_append]
        rw [ht, unescapeText_of_some (d := p.1) (r := p.2) hr]
        exact Nat.succ_le_succ (ih p.2.length hlt ht' rfl)
      | none =>
        rcases exists_of_resolve?_cons h with ⟨-, t', ht', rfl⟩ | ⟨d, rest, t', he, ht', rfl⟩
        · have := ih r.length (Nat.lt_succ_self _) ht' rfl
          rw [unescapeText_of_none hr, List.length_cons]
          exact (length_unescapeText_cons_le c t').trans (Nat.succ_le_succ this)
        · obtain ⟨body, hbody, hne, hd⟩ := exists_of_entity? he
          have hlt : rest.length < (c :: r).length := by
            rw [hbody, List.length_append, List.length_cons]
            omega
          have := ih rest.length hlt ht' rfl
          rw [hbody, unescapeText_append_cons ⟨by decide, by decide, by decide⟩, unescapeText_cons hd]
          simp only [List.length_append, List.length_cons]
          omega

end SheetPost.Sheet.SharedStrings
