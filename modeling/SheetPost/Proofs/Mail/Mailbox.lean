/-
Mailboxes as they are read: which texts are taken apart into a name and an address in angles (`IsAngled`), and where
name and address stand in the text.
-/
import Mathlib.Data.List.Basic
import SheetPost.Mail.Mailbox
import SheetPost.Proofs.Text.Search
import SheetPost.Proofs.Text.Trim

namespace SheetPost.Mail.Mailbox

open SheetPost.Text

theorem parse_eq_ok_iff {s : List Char} {m : Mailbox} :
    parse s = .ok m ↔ m.name = (parts (trim s)).1 ∧ Address.parse (parts (trim s)).2 = .ok m.address := by
  have hp : parse s = (Address.parse (parts (trim s)).2).map fun a => ⟨(parts (trim s)).1, a⟩ := rfl
  obtain ⟨name, address⟩ := m
  rw [hp]
  cases Address.parse (parts (trim s)).2 with
  | error e => simp [Except.map]
  | ok a => simp [Except.map, eq_comm]

theorem infix_bareName (s : List Char) : bareName s <:+: s :=
  (infix_trim _).trans ((infix_trimWhile _ _).trans (infix_trim s))

/-- name and address stand in the text they are read from -/
theorem subset_of_parts (s : List Char) : (parts s).1 ⊆ s ∧ (parts s).2 ⊆ s := by
  unfold parts
  split
  · cases hc : cutAtLast '<' s.dropLast with
    | none => exact ⟨List.nil_subset s, List.Subset.refl s⟩
    | some p =>
      have hs : p.1 ++ '<' :: p.2 ⊆ s := by
        rw [← Address.cutAtLast_eq_some hc]
        exact List.dropLast_subset s
      have hleft : p.1 ⊆ s := List.Subset.trans (List.subset_append_left _ _) hs
      have hright : p.2 ⊆ s :=
        List.Subset.trans (List.Subset.trans (List.subset_cons_self '<' p.2) (List.subset_append_right _ _)) hs
      exact ⟨List.Subset.trans (infix_bareName p.1).subset hleft, List.Subset.trans (infix_trim p.2).subset hright⟩
  · exact ⟨List.nil_subset s, List.Subset.refl s⟩

/-- a text that ends in an angle and has one that opens before it -/
def IsAngled (s : List Char) : Prop := ∃ name addr, s = name ++ '<' :: (addr ++ ['>'])

theorem IsAngled.getLast? {s : List Char} (h : IsAngled s) : s.getLast? = some '>' := by
  obtain ⟨name, addr, rfl⟩ := h
  simp [List.getLast?_append, List.getLast?_cons]

/-- the last angle that opens begins the address -/
theorem parts_append {name addr : List Char} (h : '<' ∉ addr) :
    parts (name ++ '<' :: (addr ++ ['>'])) = (bareName name, trim addr) := by
  have hdrop : (name ++ '<' :: (addr ++ ['>'])).dropLast = name ++ '<' :: addr := by
    rw [List.dropLast_append_of_ne_nil (by simp), List.dropLast_cons_of_ne_nil (by simp), List.dropLast_concat]
  have hlast := IsAngled.getLast? ⟨name, addr, rfl⟩
  simp only [parts, hlast, hdrop, cutAtLast_eq_some_iff.2 ⟨rfl, h⟩, beq_self_eq_true, if_true]

theorem exists_of_isAngled {s : List Char} (h : IsAngled s) :
    ∃ name addr, s = name ++ '<' :: (addr ++ ['>']) ∧ '<' ∉ addr := by
  obtain ⟨a, b, rfl⟩ := h
  cases hc : cutAtLast '<' (a ++ '<' :: b) with
  | none => exact absurd (List.mem_append_right a List.mem_cons_self) (cutAtLast_eq_none_iff.1 hc)
  | some p =>
    obtain ⟨name, addr⟩ := p
    obtain ⟨hs, hnot⟩ := cutAtLast_eq_some_iff.1 hc
    refine ⟨name, addr, ?_, hnot⟩
    rw [← List.cons_append, ← List.append_assoc, hs, List.append_assoc, List.cons_append]

theorem parts_of_isAngled {s : List Char} (h : IsAngled s) :
    ∃ name addr, s = name ++ '<' :: (addr ++ ['>']) ∧ (parts s).2 = trim addr := by
  obtain ⟨name, addr, rfl, hnot⟩ := exists_of_isAngled h
  exact ⟨name, addr, rfl, by rw [parts_append hnot]⟩

theorem parts_of_not_isAngled {s : List Char} (h : ¬ IsAngled s) : parts s = ([], s) := by
  unfold parts
  split
  · next hlast =>
    cases hc : cutAtLast '<' s.dropLast with
    | none => rfl
    | some p =>
      obtain ⟨r, rfl⟩ := List.getLast?_eq_some_iff.1 (beq_iff_eq.1 hlast)
      rw [List.dropLast_concat] at hc
      refine absurd ⟨p.1, p.2, ?_⟩ h
      rw [(cutAtLast_eq_some_iff.1 hc).1, List.append_assoc, List.cons_append]
  · rfl

/-! ## Blanks around names -/

theorem bareName_append {b : List Char} (hb : ∀ c ∈ b, isBlank c = true) (s : List Char) :
    bareName (s ++ b) = bareName s := by
  have htrim : trim (s ++ b) = trim s := trimWhile_append hb s
  rw [bareName, htrim, bareName]

theorem bareName_dropWhile (s : List Char) : bareName (s.dropWhile isBlank) = bareName s := by
  have htrim : trim (s.dropWhile isBlank) = trim s := trimWhile_dropWhile isBlank s
  rw [bareName, htrim, bareName]

/-- only the blanks in front of the name are cut off -/
theorem trim_angled (name addr : List Char) :
    trim (name ++ '<' :: (addr ++ ['>'])) = name.dropWhile isBlank ++ '<' :: (addr ++ ['>']) := by
  have hfront : (name ++ '<' :: (addr ++ ['>'])).dropWhile isBlank =
      name.dropWhile isBlank ++ '<' :: (addr ++ ['>']) := by
    rw [List.dropWhile_append]
    split
    · next hempty =>
      rw [List.isEmpty_iff.1 hempty, List.dropWhile_cons_of_neg (by decide)]
      rfl
    · rfl
  have hlast (s : List Char) : dropEndWhile isBlank (s ++ ['>']) = s ++ ['>'] := by
    rw [dropEndWhile, List.reverse_append, List.reverse_singleton, List.singleton_append,
      List.dropWhile_cons_of_neg (by decide), List.reverse_cons, List.reverse_reverse]
  have hend := hlast (name.dropWhile isBlank ++ '<' :: addr)
  rw [List.append_assoc, List.cons_append] at hend
  rw [trim, trimWhile, hfront, hend]

/-- a text in the form `Name <addr>` is the mailbox of its parts, if `addr` is an address -/
theorem parse_append {name addr : List Char} (h : '<' ∉ addr) :
    parse (name ++ '<' :: (addr ++ ['>'])) = (Address.parse (trim addr)).map fun a => ⟨bareName name, a⟩ := by
  rw [parse, trim_angled, parts_append h, bareName_dropWhile]

/-! ## What is written -/

/-- a quoted string has no blanks at its ends -/
theorem trim_quoted (s : List Char) : trim (QuotedString.encode s) = QuotedString.encode s := by
  refine trimWhile_eq_self (fun c hc => ?_) fun c hc => ?_
  · cases hc
    rfl
  · rw [QuotedString.encode, ← List.cons_append, List.getLast?_concat] at hc
    cases hc
    rfl

/-- a name of ASCII is quoted -/
theorem render_quoted {name : List Char} {a : Address} (hne : name ≠ []) (hascii : isAscii name = true) :
    render ⟨name, a⟩ = (QuotedString.encode name ++ [' ']) ++ '<' :: (a.text ++ ['>']) := by
  have hempty : name.isEmpty = false := by simpa using hne
  simp only [render, hempty, hascii, Bool.false_eq_true, if_false, if_true, List.append_assoc, List.singleton_append]

/-- any other name is written in encoded words -/
theorem render_encoded {name : List Char} {a : Address} (hbeyond : isAscii name = false) :
    render ⟨name, a⟩ = EncodedWord.encode name ++ (' ' :: '<' :: (a.text ++ ['>'])) := by
  have hempty : name.isEmpty = false := by
    rw [← Bool.not_eq_true, List.isEmpty_iff]
    intro heq
    subst heq
    cases hbeyond
  simp only [render, hempty, hbeyond, Bool.false_eq_true, if_false]

end SheetPost.Mail.Mailbox
