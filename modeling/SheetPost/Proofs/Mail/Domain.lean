/-
The characters of addresses. A plain domain is made of letters, signs of atoms, dots and colons, or it is a literal in
brackets; the other domains are known by their ASCII form, which has the signs of ASCII that they have. No domain holds
a blank and no user begins with one, so nothing is trimmed off an address.

Main statements: `isHostChar_of_isPlainDomain`, `isLiteralChar_of_isPlainDomain` and `trim_of_parse`.
-/
import SheetPost.Proofs.Mail.Address
import SheetPost.Proofs.Net.DomainName
import SheetPost.Proofs.Text.Trim

namespace SheetPost.Mail.Address

open SheetPost.Text

/-! ## Plain domains -/

/-- a character of a domain without brackets -/
def isHostChar (c : Char) : Bool := c == '.' || c == ':' || isAtomChar c

theorem isHostChar_of_isAtomChar {c : Char} (h : isAtomChar c = true) : isHostChar c = true := by
  rw [isHostChar, h, Bool.or_true]

/-- the characters of IP addresses are such, and those of literals too -/
theorem isHostChar_of_isAddressChar {c : Char} (h : Net.isAddressChar c = true) :
    isHostChar c = true ∧ isLiteralChar c = true := by
  have hlt : c.toNat < 0x80 := by
    rw [Net.isAddressChar, Bool.or_eq_true, Bool.or_eq_true, beq_iff_eq, beq_iff_eq] at h
    rcases h with (h | rfl) | rfl
    · simp only [digitValue?, Option.isSome_ite] at h
      split_ifs at h <;> omega
    · decide
    · decide
  have hall : ∀ n : Fin 0x80, Net.isAddressChar (Char.ofNat n) = true →
      isHostChar (Char.ofNat n) = true ∧ isLiteralChar (Char.ofNat n) = true := by
    decide +kernel
  have := hall ⟨c.toNat, hlt⟩
  rw [Char.ofNat_toNat] at this
  exact this h

theorem isAddressChar_of_isIp {s : List Char} (h : (Net.readIpv4? s).isSome = true ∨ (Net.readIpv6? s).isSome = true) :
    s ≠ [] ∧ ∀ c ∈ s, Net.isAddressChar c = true := by
  constructor
  · rintro rfl
    revert h
    decide
  · rcases h with h | h
    · obtain ⟨octets, hread⟩ := Option.isSome_iff_exists.1 h
      exact (Net.of_readIpv4? hread).1
    · obtain ⟨gs, hread⟩ := Option.isSome_iff_exists.1 h
      exact (Net.of_readIpv6? hread).1.chars

/-- a text of at least two characters, by its ends -/
theorem eq_of_ends {s : List Char} {a z : Char} (ha : s.head? = some a) (hz : s.getLast? = some z)
    (hlength : 2 ≤ s.length) : s = a :: (s.tail.dropLast ++ [z]) := by
  obtain ⟨r, rfl⟩ := List.head?_eq_some_iff.1 ha
  cases r with
  | nil => simp at hlength
  | cons c r =>
    rw [List.getLast?_cons_cons] at hz
    obtain ⟨inner, hr⟩ := List.getLast?_eq_some_iff.1 hz
    rw [List.tail_cons, hr, List.dropLast_concat]

theorem bracketed?_eq_some {s literal : List Char} (h : bracketed? s = some literal) :
    s = '[' :: (literal ++ [']']) := by
  unfold bracketed? at h
  split at h
  · next hb =>
    simp only [Bool.and_eq_true, decide_eq_true_eq, beq_iff_eq] at hb
    cases h
    exact eq_of_ends hb.1.2 hb.2 hb.1.1
  · cases h

/-- **A plain domain without brackets** -/
theorem isHostChar_of_isPlainDomain {s : List Char} (h : isPlainDomain s = true) (hb : bracketed? s = none) :
    s ≠ [] ∧ ∀ c ∈ s, isHostChar c = true := by
  simp only [isPlainDomain, hb, Option.getD_none, Bool.or_eq_true, Bool.and_eq_true] at h
  rw [or_assoc] at h
  rcases h with ⟨⟨hne, -⟩, hlabels⟩ | h
  · refine ⟨by simpa using hne, fun c hc => ?_⟩
    rw [← join_split '.' s] at hc
    rcases mem_join hc with hc | ⟨label, hlabel, hc⟩
    · rw [List.mem_singleton.1 hc]
      rfl
    · have hlabel := List.all_eq_true.1 hlabels label hlabel
      unfold isLabel at hlabel
      split at hlabel
      · rw [Bool.and_eq_true] at hlabel
        exact isHostChar_of_isAtomChar (List.all_eq_true.1 hlabel.2 c hc)
      · cases hlabel
  · obtain ⟨hne, hchars⟩ := isAddressChar_of_isIp h
    exact ⟨hne, fun c hc => (isHostChar_of_isAddressChar (hchars c hc)).1⟩

/-- **A plain domain in brackets** -/
theorem isLiteralChar_of_isPlainDomain {s literal : List Char} (h : isPlainDomain s = true)
    (hb : bracketed? s = some literal) : ∀ c ∈ literal, isLiteralChar c = true := by
  simp only [isPlainDomain, hb, Option.getD_some, Bool.or_eq_true, Bool.and_eq_true] at h
  rw [or_assoc] at h
  rcases h with ⟨-, hliteral⟩ | h
  · exact List.all_eq_true.1 hliteral
  · exact fun c hc => (isHostChar_of_isAddressChar ((isAddressChar_of_isIp h).2 c hc)).2

/-! ## Blanks -/

theorem not_isBlank_of_char {c : Char} (h : isHostChar c = true ∨ isLiteralChar c = true) : isBlank c = false := by
  rw [← Bool.not_eq_true]
  intro hblank
  have hnone := forall_isBlank (P := fun c => isHostChar c = false ∧ isLiteralChar c = false) (by decide +kernel) hblank
  simp [hnone] at h

theorem not_isBlank_of_isPlainDomain {s : List Char} (h : isPlainDomain s = true) :
    s ≠ [] ∧ ∀ c ∈ s, isBlank c = false := by
  cases hb : bracketed? s with
  | none =>
    obtain ⟨hne, hchars⟩ := isHostChar_of_isPlainDomain h hb
    exact ⟨hne, fun c hc => not_isBlank_of_char (.inl (hchars c hc))⟩
  | some literal =>
    have hchars := isLiteralChar_of_isPlainDomain h hb
    obtain rfl := bracketed?_eq_some hb
    refine ⟨by simp, fun c hc => ?_⟩
    simp only [List.mem_cons, List.mem_append, List.not_mem_nil, or_false] at hc
    rcases hc with rfl | hc | rfl
    · decide
    · exact not_isBlank_of_char (.inr (hchars c hc))
    · decide

/-- a domain is plain as it is written or in its ASCII form -/
theorem plain_of_isDomain {s : List Char} (h : isDomain s = true) :
    isPlainDomain s = true ∨ ∃ ascii, Net.DomainName.toAscii? s = some ascii ∧ isPlainDomain ascii = true := by
  rw [isDomain, Bool.or_eq_true] at h
  refine h.imp_right fun h => ?_
  cases hascii : Net.DomainName.toAscii? s with
  | none =>
    rw [hascii] at h
    cases h
  | some ascii =>
    rw [hascii] at h
    exact ⟨ascii, rfl, h⟩

theorem not_isBlank_of_isDomain {s : List Char} (h : isDomain s = true) : s ≠ [] ∧ ∀ c ∈ s, isBlank c = false := by
  rcases plain_of_isDomain h with h | ⟨ascii, hascii, h⟩
  · exact not_isBlank_of_isPlainDomain h
  · obtain ⟨hne, hchars⟩ := not_isBlank_of_isPlainDomain h
    constructor
    · rintro rfl
      cases hascii
      exact hne rfl
    · intro c hc
      rw [← Bool.not_eq_true]
      intro hblank
      -- a blank of ASCII would be one of the ASCII form
      have hlt := Net.DomainName.lt_of_isBlank_of_toAscii? hascii hc hblank
      have hplain := forall_isBlank (P := fun c => c.toLower = c ∧ c ≠ '.') (by decide) hblank
      have hnone := hchars c (Net.DomainName.mem_of_toAscii? hascii hc hlt hplain.1 hplain.2)
      rw [hblank] at hnone
      cases hnone

/-! ## Addresses -/

theorem isDomain_of_parse {s : List Char} {a : Address} (h : parse s = .ok a) : isDomain a.domain = true := by
  unfold parse at h
  split at h
  · cases h
  · split at h
    · cases h
    · split at h
      · cases h
      · next hd =>
        cases h
        simpa using hd

/-- a user begins with a quote or a sign of an atom -/
theorem head_of_isUser {user : List Char} (h : isUser user = true) :
    ∃ c r, user = c :: r ∧ isBlank c = false := by
  cases user with
  | nil => exact absurd h (by decide)
  | cons c r =>
    refine ⟨c, r, rfl, ?_⟩
    unfold isUser at h
    rw [Bool.and_eq_true] at h
    have h := h.2
    split at h
    · next hquoted =>
      rw [Bool.and_eq_true, beq_iff_eq, beq_iff_eq] at hquoted
      cases hquoted.1
      rfl
    · rcases isAtomChar_of_isDotAtom h List.mem_cons_self with rfl | hatom
      · decide
      · exact not_isBlank_of_char (.inl (isHostChar_of_isAtomChar hatom))

/-- **Nothing is trimmed off an address** -/
theorem trim_of_parse {s : List Char} {a : Address} (h : parse s = .ok a) : trim s = s := by
  obtain ⟨rfl, -, hu⟩ := of_parse h
  obtain ⟨c, r, huser, hc⟩ := head_of_isUser hu
  obtain ⟨hne, hblank⟩ := not_isBlank_of_isDomain (isDomain_of_parse h)
  refine trimWhile_eq_self ?_ ?_
  · intro d hd
    rw [huser] at hd
    cases hd
    exact hc
  · intro d hd
    rw [List.getLast?_append, List.getLast?_cons] at hd
    obtain ⟨e, he⟩ : ∃ e, a.domain.getLast? = some e := by
      rw [← Option.isSome_iff_exists]
      simpa using hne
    rw [he] at hd
    cases hd
    exact hblank e (List.mem_of_getLast? he)

end SheetPost.Mail.Address
