/-
Mailboxes that are read again from what was written for them. A name is written in quotes with escapes, but what is read
is taken out of its quotes by cutting quotes off its ends; the escapes stay, and are escaped in their turn. So a mailbox
comes out as it went in just if its name needs no escapes: each backslash comes back as two, and each quote with one.

Main statement: which mailboxes are written the same again (`renderMailbox_again_iff`).
-/
import SheetPost.Proofs.Mail.Domain
import SheetPost.Proofs.Mail.HeaderValue

namespace SheetPost.Mail

open SheetPost.Text

/-! ## Names -/

namespace Mailbox

theorem trim_bareName (s : List Char) : trim (bareName s) = bareName s := trimWhile_trimWhile isBlank _

/-- the quotes around the name are cut off, and those at its ends with them -/
theorem bareName_encode (s : List Char) :
    bareName (QuotedString.encode s) = trim (trimWhile (· == '"') (QuotedString.body s)) := by
  have hquote : ∀ c ∈ ['"'], (c == '"') = true := List.forall_mem_singleton.2 rfl
  rw [bareName, trim_quoted, QuotedString.encode, ← List.singleton_append, trimWhile_behind hquote,
    trimWhile_append hquote]

/-- every backslash is written as two, and one stands before every quote -/
theorem count_body (s : List Char) : (QuotedString.body s).count '\\' = 2 * s.count '\\' + s.count '"' := by
  induction s with
  | nil => rfl
  | cons c s ih =>
    have e : QuotedString.body (c :: s) = QuotedString.escape c ++ QuotedString.body s := rfl
    rw [e, List.count_append, ih]
    by_cases hb : c = '\\'
    · subst hb
      simp [QuotedString.escape]
      omega
    · by_cases hq : c = '"'
      · subst hq
        simp [QuotedString.escape]
        omega
      · simp [QuotedString.escape, hb, hq]

/-- cutting takes no backslash away, so one that was written more often than it stood in the name stays so -/
theorem count_bareName_encode (s : List Char) :
    (bareName (QuotedString.encode s)).count '\\' = 2 * s.count '\\' + s.count '"' := by
  rw [bareName_encode, trim, count_trimWhile (by decide), count_trimWhile (by decide), count_body]

/-- **The name that is read back from its quotes** is the name just if none of its signs is escaped there -/
theorem bareName_encode_eq_iff {s : List Char} (hs : trim s = s) :
    bareName (QuotedString.encode s) = s ↔ '"' ∉ s ∧ '\\' ∉ s := by
  constructor
  · intro h
    have hcount := count_bareName_encode s
    rw [h] at hcount
    rw [← List.count_eq_zero, ← List.count_eq_zero]
    omega
  · intro ⟨hq, hb⟩
    have hno (c : Char) (hc : c ∈ s) : (c == '"') = false := by
      rw [beq_eq_false_iff_ne]
      intro heq
      subst heq
      exact hq hc
    rw [bareName_encode, QuotedString.body_of_not_mem hb hq,
      trimWhile_eq_self (fun c hc => hno c (List.mem_of_head? hc)) fun c hc => hno c (List.mem_of_getLast? hc), hs]

theorem isAscii_bareName {s : List Char} (h : isAscii s = true) : isAscii (bareName s) = true :=
  List.all_eq_true.2 fun c hc => List.all_eq_true.1 h c ((infix_bareName s).subset hc)

theorem encode_inj {s t : List Char} (h : QuotedString.encode s = QuotedString.encode t) : s = t := by
  have hs := QuotedString.decode?_encode s
  rw [h, QuotedString.decode?_encode] at hs
  exact (Option.some.inj hs).symm

/-! ## Mailboxes -/

/-- no text before an angle makes a mailbox of an address in which another angle opens -/
theorem parse_eq_error_of_angle {a : Address} (ha : Address.parse a.text = .ok a) (hangle : '<' ∈ a.text)
    (name : List Char) : ∃ e, parse (name ++ '<' :: (a.text ++ ['>'])) = .error e := by
  cases hc : cutAtLast '<' a.text with
  | none => exact absurd hangle (cutAtLast_eq_none_iff.1 hc)
  | some p =>
    obtain ⟨before, behind⟩ := p
    obtain ⟨htext, hnot⟩ := cutAtLast_eq_some_iff.1 hc
    have hsplit : name ++ '<' :: (a.text ++ ['>']) = (name ++ '<' :: before) ++ '<' :: (behind ++ ['>']) := by
      rw [htext]
      simp
    rw [hsplit, parse_append hnot]
    cases hb : Address.parse (trim behind) with
    | error e => exact ⟨e, rfl⟩
    | ok b =>
      -- the text behind the angle would be an address, and then the whole is none
      have hrefused : Address.parse (before ++ '<' :: (behind ++ [])) = .error .invalidUser :=
        Address.parse_behind_angle List.not_mem_nil hb
      rw [List.append_nil, ← htext, ha] at hrefused
      cases hrefused

/-- a mailbox with a name of ASCII, read again from what was written for it -/
theorem parse_render {name : List Char} {a : Address} (hne : name ≠ []) (hascii : isAscii name = true)
    (ha : Address.parse a.text = .ok a) (hangle : '<' ∉ a.text) :
    parse (render ⟨name, a⟩) = .ok ⟨bareName (QuotedString.encode name), a⟩ := by
  rw [render_quoted hne hascii, parse_append hangle, Address.trim_of_parse ha, ha, bareName_append (List.forall_mem_singleton.2 rfl)]
  rfl

/-- what is written is the same just if the name that is read back is -/
theorem render_again_iff {name : List Char} {a : Address} (hne : name ≠ []) (hascii : isAscii name = true) :
    render ⟨bareName (QuotedString.encode name), a⟩ = render ⟨name, a⟩ ↔
      bareName (QuotedString.encode name) = name := by
  constructor
  · intro h
    have hencode : isAscii (bareName (QuotedString.encode name)) = true := by
      refine isAscii_bareName ?_
      have := isAscii_body name
      rw [hascii] at this
      simpa [QuotedString.encode, isAscii] using this
    by_cases hback : bareName (QuotedString.encode name) = []
    · -- the address alone is shorter than the address behind a name
      rw [hback, render_quoted hne hascii] at h
      have hlength := congrArg List.length h
      simp only [render, List.isEmpty_nil, if_true, List.length_append, List.length_cons, List.length_nil] at hlength
      omega
    · rw [render_quoted hback hencode, render_quoted hne hascii, List.append_left_inj, List.append_left_inj] at h
      exact encode_inj h
  · intro h
    rw [h]

end Mailbox

/-- **Which mailboxes are kept**: with a name of ASCII before an address in angles, a mailbox is written in quotes. What
was written is written the same again, and shows the same name, just if the name holds no quote and no backslash; the
address stays in any case. An address that holds an angle itself is refused in this form. -/
theorem Message.renderMailbox_again_iff (field : Field) {name : List Char} {a : Address} (hname : isAscii name = true)
    (hne : Mailbox.bareName name ≠ []) (ha : Address.parse a.text = .ok a) {value : String}
    (hvalue : value.toList = name ++ ' ' :: '<' :: (a.text ++ ['>'])) :
    ('<' ∈ a.text → renderMailbox field value = .error (.mailbox field value)) ∧
    ('<' ∉ a.text → ∃ written, renderMailbox field value = .ok written.toList ∧
      (renderMailbox field written = .ok written.toList ↔
        '"' ∉ Mailbox.bareName name ∧ '\\' ∉ Mailbox.bareName name) ∧
      ∃ m, Mailbox.parse written.toList = .ok m ∧ m.address = a ∧
        (m.name = Mailbox.bareName name ↔ '"' ∉ Mailbox.bareName name ∧ '\\' ∉ Mailbox.bareName name)) := by
  have hsplit : value.toList = (name ++ [' ']) ++ '<' :: (a.text ++ ['>']) := by
    rw [hvalue, List.append_assoc, List.singleton_append]
  constructor
  · intro hangle
    obtain ⟨e, he⟩ := Mailbox.parse_eq_error_of_angle ha hangle (name ++ [' '])
    rw [renderMailbox, hsplit, he]
  · intro hangle
    have hascii := Mailbox.isAscii_bareName hname
    have hread : Mailbox.parse value.toList = .ok ⟨Mailbox.bareName name, a⟩ := by
      rw [hsplit, Mailbox.parse_append hangle, Address.trim_of_parse ha, ha, Mailbox.bareName_append (List.forall_mem_singleton.2 rfl)]
      rfl
    have hagain := Mailbox.parse_render hne hascii ha hangle
    have hiff := Mailbox.bareName_encode_eq_iff (Mailbox.trim_bareName name)
    refine ⟨String.ofList (Mailbox.render ⟨Mailbox.bareName name, a⟩), ?_, ?_, ?_⟩
    · rw [renderMailbox, hread, String.toList_ofList]
    · rw [renderMailbox, String.toList_ofList, hagain, ← hiff, ← Mailbox.render_again_iff (a := a) hne hascii]
      simp
    · rw [String.toList_ofList]
      refine ⟨_, hagain, rfl, ?_⟩
      simp only
      exact hiff

/-- a name with a comma is kept in its quotes -/
theorem Message.renderMailbox_again_comma :
    isAscii "\"Ops, Team\"".toList = true ∧ Mailbox.bareName "\"Ops, Team\"".toList ≠ [] ∧
    Address.parse "ops@example.com".toList = .ok ⟨"ops".toList, "example.com".toList⟩ ∧
    ∃ written, renderMailbox .recipient "\"Ops, Team\" <ops@example.com>" = .ok written.toList ∧
      renderMailbox .recipient written = .ok written.toList := by
  have hname : isAscii "\"Ops, Team\"".toList = true := by decide
  have hne : Mailbox.bareName "\"Ops, Team\"".toList ≠ [] := by decide
  have ha : Address.parse "ops@example.com".toList = .ok ⟨"ops".toList, "example.com".toList⟩ := by decide +kernel
  have hvalue : "\"Ops, Team\" <ops@example.com>".toList =
      "\"Ops, Team\"".toList ++ ' ' :: '<' :: ((Address.mk "ops".toList "example.com".toList).text ++ ['>']) := by
    decide
  have hagain := renderMailbox_again_iff .recipient hname hne (a := ⟨"ops".toList, "example.com".toList⟩) ha hvalue
  obtain ⟨written, hwritten, hiff, -⟩ := hagain.2 (by decide)
  exact ⟨hname, hne, ha, written, hwritten, hiff.2 (by decide)⟩

/-- a quote in a name is escaped, and then the backslash in front of it is too -/
theorem Message.renderMailbox_again_quote :
    isAscii "a\"b".toList = true ∧ Mailbox.bareName "a\"b".toList ≠ [] ∧
    Address.parse "a@b.co".toList = .ok ⟨"a".toList, "b.co".toList⟩ ∧
    renderMailbox .recipient "a\"b <a@b.co>" = .ok "\"a\\\"b\" <a@b.co>".toList ∧
    renderMailbox .recipient "\"a\\\"b\" <a@b.co>" = .ok "\"a\\\\\\\"b\" <a@b.co>".toList ∧
    renderMailbox .recipient "\"a\\\"b\" <a@b.co>" ≠ .ok "\"a\\\"b\" <a@b.co>".toList := by
  decide +kernel

end SheetPost.Mail
