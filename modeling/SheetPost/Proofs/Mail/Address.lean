/-
Addresses and what cannot be in front of one: a text that ends in a user is itself no user if an angle stands in it,
with nothing but blanks between the two. No atom holds an angle, and in a quoted user the quote that opens the inner one
would have to be escaped, but no backslash stands before it.

Main statements: `isUser_behind_angle` and, for whole addresses, `parse_behind_angle`.
-/
import Mathlib.Data.List.Basic
import SheetPost.Mail.Address
import SheetPost.Proofs.Text.Search
import SheetPost.Proofs.Text.Trim

namespace SheetPost.Mail.Address

open SheetPost.Text

theorem of_parse {s : List Char} {a : Address} (h : parse s = .ok a) :
    s = a.user ++ '@' :: a.domain ∧ '@' ∉ a.domain ∧ isUser a.user = true := by
  unfold parse at h
  split at h
  · cases h
  · next user domain hc =>
    obtain ⟨hs, hat⟩ := cutAtLast_eq_some_iff.1 hc
    split at h
    · cases h
    · next hu =>
      split at h
      · cases h
      · cases h
        exact ⟨hs, hat, by simpa using hu⟩

theorem parse_of_isUser_eq_false {user domain : List Char} (hat : '@' ∉ domain) (hu : isUser user = false) :
    parse (user ++ '@' :: domain) = .error .invalidUser := by
  rw [parse, cutAtLast_eq_some_iff.2 ⟨rfl, hat⟩]
  simp only [hu, Bool.not_false, if_true]

/-! ## Users -/

theorem isAtomChar_angle : isAtomChar '<' = false := by decide +kernel

theorem isAtomChar_quote : isAtomChar '"' = false := by decide +kernel

/-- every character of a list of atoms is a dot or goes into an atom -/
theorem isAtomChar_of_isDotAtom {s : List Char} (h : isDotAtom s = true) {c : Char} (hc : c ∈ s) :
    c = '.' ∨ isAtomChar c = true := by
  by_cases hdot : c = '.'
  · exact .inl hdot
  · have hjoin := join_split '.' s
    have hpieces (ps : List (List Char)) (hm : c ∈ join ['.'] ps) : ∃ p ∈ ps, c ∈ p := by
      fun_induction join ['.'] ps with
      | case1 => cases hm
      | case2 p => exact ⟨p, List.mem_cons_self, hm⟩
      | case3 p q ps ih =>
        rcases List.mem_append.1 hm with hm | hm
        · rcases List.mem_append.1 hm with hm | hm
          · exact ⟨p, List.mem_cons_self, hm⟩
          · exact absurd (List.mem_singleton.1 hm) hdot
        · obtain ⟨r, hr, hcr⟩ := ih hm
          exact ⟨r, List.mem_cons_of_mem p hr, hcr⟩
    obtain ⟨p, hp, hcp⟩ := hpieces _ (by rwa [hjoin])
    have hatom := List.all_eq_true.1 h p hp
    rw [Bool.and_eq_true] at hatom
    exact .inr (List.all_eq_true.1 hatom.2 c hcp)

/-- a quote that no backslash stands before ends a quoted text -/
theorem isQuotedBody_quote {blanks : List Char} (hb : ∀ c ∈ blanks, isBlank c = true) (lead rest : List Char) :
    isQuotedBody (lead ++ '<' :: (blanks ++ '"' :: rest)) = false := by
  have hblanks : isQuotedBody (blanks ++ '"' :: rest) = false := by
    induction blanks with
    | nil => simp [isQuotedBody, isQuotedChar, isWide]
    | cons c blanks ih =>
      have hc : c ≠ '\\' := by
        intro heq
        subst heq
        exact absurd (hb _ List.mem_cons_self) (by decide)
      rw [List.cons_append, isQuotedBody.eq_3, ih fun d hd => hb d (List.mem_cons_of_mem c hd), Bool.and_false]
      intro d r he _
      exact hc he
  fun_induction isQuotedBody lead with
  | case1 =>
    rw [List.nil_append, isQuotedBody.eq_3, hblanks, Bool.and_false]
    intro d r he _
    exact absurd he (by decide)
  | case2 c r ih => rw [List.cons_append, List.cons_append, isQuotedBody, ih, Bool.and_false]
  | case3 c r hc ih =>
    rw [List.cons_append]
    by_cases hslash : c = '\\'
    · -- a backslash at the end of `lead` takes the angle with it
      cases r with
      | nil => rw [hslash, List.nil_append, isQuotedBody, hblanks, Bool.and_false]
      | cons d r => exact (hc d r hslash rfl).elim
    · rw [isQuotedBody.eq_3, ih, Bool.and_false]
      intro d t he _
      exact hslash he

/-- a user whose last character is a quote begins with another one -/
theorem exists_of_getLast? {user : List Char} (hu : isUser user = true) (hq : user.getLast? = some '"') :
    ∃ rest, user = '"' :: rest ∧ rest ≠ [] := by
  unfold isUser at hu
  rw [Bool.and_eq_true] at hu
  have hu := hu.2
  split at hu
  · next hquoted =>
    rw [Bool.and_eq_true, beq_iff_eq] at hquoted
    obtain ⟨rest, rfl⟩ := List.head?_eq_some_iff.1 hquoted.1
    refine ⟨rest, rfl, ?_⟩
    intro heq
    subst heq
    exact absurd hu (by decide)
  · rcases isAtomChar_of_isDotAtom hu (List.mem_of_getLast? hq) with h | h
    · cases h
    · rw [isAtomChar_quote] at h
      cases h

/-- **A user behind an angle and blanks is no user together with them** -/
theorem isUser_behind_angle {blanks user : List Char} (name : List Char) (hb : ∀ c ∈ blanks, isBlank c = true)
    (hu : isUser user = true) : isUser (name ++ '<' :: (blanks ++ user)) = false := by
  have hne : user ≠ [] := by
    intro heq
    subst heq
    revert hu
    decide
  rw [← Bool.not_eq_true]
  intro h
  unfold isUser at h
  rw [Bool.and_eq_true] at h
  have h := h.2
  split at h
  · next hquoted =>
    rw [Bool.and_eq_true, beq_iff_eq, beq_iff_eq] at hquoted
    rw [Bool.and_eq_true] at h
    obtain ⟨hhead, hlast⟩ := hquoted
    have hlast : user.getLast? = some '"' := by
      have hu' : user.getLast? ≠ none := by simpa using hne
      cases hl : user.getLast? with
      | none => exact absurd hl hu'
      | some c => simpa [List.getLast?_append, List.getLast?_cons, hl] using hlast
    obtain ⟨rest, rfl, hrest⟩ := exists_of_getLast? hu hlast
    cases name with
    | nil => cases hhead
    | cons c name =>
      have hbody : ((c :: name) ++ '<' :: (blanks ++ '"' :: rest)).tail.dropLast =
          name ++ '<' :: (blanks ++ '"' :: rest.dropLast) := by
        rw [List.cons_append, List.tail_cons, List.dropLast_append_of_ne_nil (by simp),
          List.dropLast_cons_of_ne_nil (by simp), List.dropLast_append_of_ne_nil (by simp),
          List.dropLast_cons_of_ne_nil hrest]
      rw [hbody, isQuotedBody_quote hb] at h
      exact absurd h.2 (by decide)
  · rcases isAtomChar_of_isDotAtom h (List.mem_append_right name List.mem_cons_self) with h | h
    · cases h
    · rw [isAtomChar_angle] at h
      cases h

/-- an address behind an angle is refused for its user, whatever stands before it -/
theorem parse_behind_angle {name addr rest : List Char} {a : Address} (hrest : '@' ∉ rest)
    (h : parse (trim addr) = .ok a) : parse (name ++ '<' :: (addr ++ rest)) = .error .invalidUser := by
  obtain ⟨hs, hat, hu⟩ := of_parse h
  obtain ⟨before, behind, haddr, hbefore, hbehind⟩ := exists_trimWhile isBlank addr
  have htext : name ++ '<' :: (addr ++ rest) =
      (name ++ '<' :: (before ++ a.user)) ++ '@' :: (a.domain ++ (behind ++ rest)) := by
    rw [haddr]
    show name ++ '<' :: (before ++ (trim addr ++ behind) ++ rest) = _
    rw [hs]
    simp
  have hbehind : '@' ∉ behind := by
    intro hm
    exact absurd (hbehind '@' hm) (by decide)
  have hat : '@' ∉ a.domain ++ (behind ++ rest) := by
    simp only [List.mem_append, not_or]
    exact ⟨hat, hbehind, hrest⟩
  rw [htext]
  exact parse_of_isUser_eq_false hat (isUser_behind_angle name hbefore hu)

end SheetPost.Mail.Address
