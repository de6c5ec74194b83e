/-
Hosts and the texts that spell them: a name without signs of other parts, or an IPv6 address in brackets (`SpelledBy`).
These are the texts that are read as hosts, and a host that was read is spelled by its own text as well. Where such a
text stands in a URL, the host is cut off behind it, at a colon or at the end of the authority.

Main statements: `Host.readOpaque?_eq_some_iff`, `Host.SpelledBy.text` and `cutHost_of_spelledBy`.
-/
import SheetPost.Proofs.Net.Ip
import SheetPost.Proofs.Url.Parts

namespace SheetPost.Url

open SheetPost.Text

/-! ## Hosts -/

namespace Host

/-- a text spells a host: a name by itself, with what no host holds escaped, and an IPv6 address in brackets -/
inductive SpelledBy : Host → List Char → Prop
  | name {s : List Char} (hne : s ≠ []) (hplain : ∀ c ∈ s, isSeparator c = false) :
    SpelledBy (.name (escape isControl s)) s
  | ipv6 {s : List Char} {groups : Net.Groups} (h : Net.readIpv6? s = some groups) :
    SpelledBy (.ipv6 groups) ('[' :: (s ++ [']']))

variable {h : Host} {s : List Char}

theorem SpelledBy.ne_nil (hs : h.SpelledBy s) : s ≠ [] := by
  cases hs with
  | name hne _ => exact hne
  | ipv6 _ => simp

/-- the inside of a text in brackets -/
theorem exists_of_readBracketed? (hs : s.head? = some '[') (hread : readBracketed? s = some h) :
    ∃ t groups, s = '[' :: (t ++ [']']) ∧ Net.readIpv6? t = some groups ∧ h = .ipv6 groups := by
  unfold readBracketed? at hread
  split at hread
  · next hclose =>
    obtain ⟨groups, hgroups, rfl⟩ := Option.map_eq_some_iff.1 hread
    rw [Bool.and_eq_true, decide_eq_true_eq, beq_iff_eq] at hclose
    obtain ⟨hlength, hlast⟩ := hclose
    obtain ⟨r, rfl⟩ := List.head?_eq_some_iff.1 hs
    obtain ⟨c, r, rfl⟩ := List.exists_cons_of_ne_nil (l := r) (by rintro rfl; simp at hlength)
    rw [List.getLast?_cons_cons] at hlast
    obtain ⟨t, ht⟩ := List.getLast?_eq_some_iff.1 hlast
    rw [ht] at hgroups ⊢
    exact ⟨t, groups, rfl, by simpa using hgroups, rfl⟩
  · cases hread

/-- **What is read as a host spells it** -/
theorem readOpaque?_eq_some_iff (hne : s ≠ []) : readOpaque? s = some h ↔ h.SpelledBy s := by
  constructor
  · intro hread
    unfold readOpaque? at hread
    split at hread
    · next hopen =>
      obtain ⟨t, groups, rfl, hgroups, rfl⟩ := exists_of_readBracketed? (beq_iff_eq.1 hopen) hread
      exact .ipv6 hgroups
    · split at hread
      · cases hread
      · next hsep =>
        cases hread
        exact .name hne (by simpa using hsep)
  · intro hs
    cases hs with
    | name _ hplain =>
      have hopen : ¬ (s.head? == some '[') = true := by
        intro hopen
        have := hplain '[' (List.mem_of_head? (beq_iff_eq.1 hopen))
        cases this
      have hsep : s.any isSeparator = false := by simpa using hplain
      rw [readOpaque?, if_neg hopen, hsep]
      rfl
    | @ipv6 t groups hread =>
      have hlast : ('[' :: (t ++ [']'])).getLast? = some ']' := by
        rw [← List.cons_append]
        exact List.getLast?_concat
      have hbracketed : readBracketed? ('[' :: (t ++ [']'])) = some (.ipv6 groups) := by
        simp [readBracketed?, hread, hlast]
      exact hbracketed

theorem isSeparator_ne {c : Char} (hc : isSeparator c = true) : c ≠ '%' ∧ Percent.isHex c = false := by
  have key : ['\x00', '\t', '\n', '\r', ' ', '#', '/', ':', '<', '>', '?', '@', '[', '\\', ']', '^', '|'].all
      (fun d => d != '%' && !Percent.isHex d) = true := by decide
  have hd := List.all_eq_true.1 key c (by simpa [isSeparator] using hc)
  simpa using hd

/-- **A host is spelled by its own text** -/
theorem SpelledBy.text (hs : h.SpelledBy s) : h.SpelledBy h.text := by
  cases hs with
  | name hne hplain =>
    have hwritten : SpelledBy (.name (escape isControl (escape isControl s))) (escape isControl s) := by
      refine .name (escape_ne_nil hne) fun c hc => ?_
      rw [← Bool.not_eq_true]
      intro hsep
      obtain ⟨hpercent, hhex⟩ := isSeparator_ne hsep
      have := hplain c (isEscapeSet_control.mem_of_mem_escape hc hpercent hhex).1
      rw [hsep] at this
      cases this
    rwa [isEscapeSet_control.escape_escape] at hwritten
  | ipv6 hread =>
    obtain ⟨hstand, hlength⟩ := Net.of_readIpv6? hread
    exact .ipv6 (Net.readIpv6?_writeIpv6 hstand.groups hlength)

/-- the signs that can move the end of a host: those that another part begins or ends with, those that do not count,
and the backslash, which ends a port -/
def movers : List Char := ['/', '?', '#', '@', '\\', '\t', '\n', '\r']

theorem SpelledBy.not_mem_movers (hs : h.SpelledBy s) : ∀ c ∈ s, c ∉ movers := by
  intro c hc hmove
  cases hs with
  | name _ hplain =>
    have key : movers.all isSeparator = true := by decide
    have := List.all_eq_true.1 key c hmove
    rw [hplain c hc] at this
    cases this
  | ipv6 hread =>
    have key : movers.all (fun d => !Net.isAddressChar d && d != '[' && d != ']') = true := by decide
    have hd := List.all_eq_true.1 key c hmove
    simp only [Bool.and_eq_true, Bool.not_eq_true', bne_iff_ne] at hd
    obtain ⟨⟨hforeign, hopen⟩, hclose⟩ := hd
    rcases List.mem_cons.1 hc with rfl | hc
    · exact hopen rfl
    · rcases List.mem_append.1 hc with hc | hc
      · rw [(Net.of_readIpv6? hread).1.chars c hc] at hforeign
        cases hforeign
      · exact hclose (List.mem_singleton.1 hc)

theorem isDelimiter_of_not_mem_movers (hs : ∀ c ∈ s, c ∉ movers) : ∀ c ∈ s, isDelimiter c = false := by
  intro c hc
  rw [← Bool.not_eq_true]
  intro hd
  refine hs c hc ?_
  rcases isDelimiter_iff.1 hd with rfl | rfl | rfl | rfl <;> decide

theorem isIgnored_of_not_mem_movers (hs : ∀ c ∈ s, c ∉ movers) : ∀ c ∈ s, isIgnored c = false := by
  intro c hc
  rw [← Bool.not_eq_true]
  intro hignored
  refine hs c hc ?_
  simp only [isIgnored, Bool.or_eq_true, beq_iff_eq] at hignored
  rcases hignored with (rfl | rfl) | rfl <;> decide

theorem SpelledBy.isDelimiter_eq_false (hs : h.SpelledBy s) : ∀ c ∈ s, isDelimiter c = false :=
  isDelimiter_of_not_mem_movers hs.not_mem_movers

/-- the text of a host has nothing that is cut off or left out -/
theorem SpelledBy.lt_of_mem_text (hs : h.SpelledBy s) :
    ∀ c ∈ h.text, 0x20 < c.toNat := by
  intro c hc
  cases hs with
  | name _ hplain =>
    refine lt_of_ne_blank (isEscapeSet_control.le_of_isKept (isEscapeSet_control.isKept_escape s) c hc) ?_
    rintro rfl
    have := hplain ' ' (isEscapeSet_control.mem_of_mem_escape hc (by decide) (by decide)).1
    cases this
  | ipv6 hread =>
    obtain ⟨hstand, hlength⟩ := Net.of_readIpv6? hread
    have hwritten := (Net.of_readIpv6? (Net.readIpv6?_writeIpv6 hstand.groups hlength)).1
    rcases List.mem_cons.1 hc with rfl | hc
    · decide
    rcases List.mem_append.1 hc with hc | hc
    · exact Net.lt_of_isAddressChar (hwritten.chars c hc)
    · rw [List.mem_singleton.1 hc]
      decide

end Host

/-! ## Where a host ends -/

/-- what can stand behind a host -/
def EndsHost (rest : List Char) : Prop := ∀ c, rest.head? = some c → c = ':' ∨ endsAuthority false c = true

theorem cutHost_of_endsHost {rest : List Char} (h : EndsHost rest) : cutHost false false rest = ([], rest) := by
  cases rest with
  | nil => rfl
  | cons c r =>
    rw [cutHost, if_pos]
    rcases h c rfl with rfl | hc
    · rfl
    · simp [hc]

/-- signs without a meaning of their own go to the host; a colon has none within brackets -/
theorem cutHost_append {bracket : Bool} {s : List Char}
    (hs : ∀ c ∈ s, c ≠ '[' ∧ c ≠ ']' ∧ endsAuthority false c = false ∧ (c = ':' → bracket = true)) (rest : List Char) :
    cutHost false bracket (s ++ rest) = (s ++ (cutHost false bracket rest).1, (cutHost false bracket rest).2) := by
  induction s with
  | nil => rfl
  | cons c s ih =>
    obtain ⟨hopen, hclose, hends, hcolon⟩ := hs c List.mem_cons_self
    have hgo : ¬ ((c == ':' && !bracket) || endsAuthority false c) = true := by
      rw [hends, Bool.or_false, Bool.and_eq_true, beq_iff_eq]
      rintro ⟨hc, hb⟩
      rw [hcolon hc] at hb
      cases hb
    have hbracket : (if c == '[' then true else if c == ']' then false else bracket) = bracket := by
      simp [hopen, hclose]
    rw [List.cons_append, cutHost, if_neg hgo, hbracket, ih fun d hd => hs d (List.mem_cons_of_mem c hd)]
    rfl

/-- **A host is cut off where it ends** -/
theorem cutHost_of_spelledBy {h : Host} {s rest : List Char} (hs : h.SpelledBy s) (hrest : EndsHost rest) :
    cutHost false false (s ++ rest) = (s, rest) := by
  have hend := cutHost_of_endsHost hrest
  cases hs with
  | name _ hplain =>
    have key : ['[', ']', '/', '?', '#', ':'].all Host.isSeparator = true := by decide
    have hinside : ∀ c ∈ s, c ≠ '[' ∧ c ≠ ']' ∧ endsAuthority false c = false ∧ (c = ':' → false = true) := by
      intro c hc
      have hnot : c ∉ ['[', ']', '/', '?', '#', ':'] := by
        intro hmem
        have := List.all_eq_true.1 key c hmem
        rw [hplain c hc] at this
        cases this
      simpa [endsAuthority, and_assoc] using hnot
    rw [cutHost_append hinside, hend, List.append_nil]
  | @ipv6 t groups hread =>
    have key : ['[', ']', '/', '?', '#'].all (fun d => !Net.isAddressChar d) = true := by decide
    have hinside : ∀ c ∈ t, c ≠ '[' ∧ c ≠ ']' ∧ endsAuthority false c = false ∧ (c = ':' → true = true) := by
      intro c hc
      have hnot : c ∉ ['[', ']', '/', '?', '#'] := by
        intro hmem
        have := List.all_eq_true.1 key c hmem
        rw [(Net.of_readIpv6? hread).1.chars c hc] at this
        cases this
      simpa [endsAuthority, and_assoc] using hnot
    have hclose : cutHost false true (']' :: rest) = ([']'], rest) := by
      rw [cutHost]
      simp [endsAuthority, hend]
    have hopen : cutHost false false ('[' :: (t ++ ']' :: rest)) =
        ('[' :: (cutHost false true (t ++ ']' :: rest)).1, (cutHost false true (t ++ ']' :: rest)).2) := rfl
    have htext : '[' :: (t ++ [']']) ++ rest = '[' :: (t ++ ']' :: rest) := by simp
    rw [htext, hopen, cutHost_append hinside, hclose]

end SheetPost.Url
