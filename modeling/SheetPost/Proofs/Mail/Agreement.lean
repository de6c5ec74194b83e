/-
Header and envelope read the same texts, each in its own way: the header takes `addr` and `Name <addr>`, the envelope
takes addresses only. Where the header shows a bare address, the envelope reads the same one; a text in the other form
is never an address as a whole, so a message that was built from one cannot be sent.

Main statement: the two agree on a text just if it does not end in an angle that another one opens, and a post whose
message was built fails at its addresses just if its sender or its single recipient does (`readAddress_eq_ok_iff`).
-/
import SheetPost.Delivery.Run
import SheetPost.Proofs.Mail.Address
import SheetPost.Proofs.Mail.Build
import SheetPost.Proofs.Mail.Mailbox

namespace SheetPost.Mail

open SheetPost.Text

/-! ## One text -/

/-- the envelope's reading of a text that the header takes -/
theorem Envelope.readAddress_of_parse {text : String} {m : Mailbox} (h : Mailbox.parse text.toList = .ok m) :
    (Mailbox.IsAngled (trim text.toList) → readAddress text = .error (.address text .invalidUser)) ∧
      (¬ Mailbox.IsAngled (trim text.toList) → readAddress text = .ok m.address) := by
  obtain ⟨-, ha⟩ := Mailbox.parse_eq_ok_iff.1 h
  refine ⟨fun hangled => ?_, fun hbare => ?_⟩
  · obtain ⟨name, addr, hs, hp⟩ := Mailbox.parts_of_isAngled hangled
    rw [hp] at ha
    rw [readAddress, hs, Address.parse_behind_angle (by decide) ha]
    rfl
  · rw [Mailbox.parts_of_not_isAngled hbare] at ha
    rw [readAddress, ha]
    rfl

/-! ## Posts -/

/-- the two addresses of an envelope by the mailboxes they are meant to be -/
theorem Envelope.parse_eq_error_iff {sender recipient : String} {a b : Mailbox}
    (ha : Mailbox.parse sender.toList = .ok a) (hb : Mailbox.parse recipient.toList = .ok b) :
    (∃ text cause, parse sender recipient = .error (.address text cause)) ↔
      Mailbox.IsAngled (trim sender.toList) ∨ Mailbox.IsAngled (trim recipient.toList) := by
  have hs := readAddress_of_parse ha
  have hr := readAddress_of_parse hb
  by_cases h1 : Mailbox.IsAngled (trim sender.toList)
  · refine ⟨fun _ => .inl h1, fun _ => ⟨sender, .invalidUser, ?_⟩⟩
    rw [parse, hs.1 h1]
    rfl
  · by_cases h2 : Mailbox.IsAngled (trim recipient.toList)
    · refine ⟨fun _ => .inr h2, fun _ => ⟨recipient, .invalidUser, ?_⟩⟩
      rw [parse, hs.2 h1, hr.1 h2]
      rfl
    · constructor
      · intro h
        obtain ⟨text, cause, he⟩ := h
        rw [parse, hs.2 h1, hr.2 h2] at he
        cases he
      · intro h
        rcases h with h | h
        · exact absurd h h1
        · exact absurd h h2

/-- **Where header and envelope agree**: on every text that the header takes, but those in the form `Name <addr>`. A
post whose message was built with one in that form as its sender, or as its single recipient, cannot be sent. -/
theorem readAddress_eq_ok_iff {text : String} {m : Mailbox} (h : Mailbox.parse text.toList = .ok m) :
    (Envelope.readAddress text = .ok m.address ↔ ¬ Mailbox.IsAngled (trim text.toList)) ∧
    (Mailbox.IsAngled (trim text.toList) → Envelope.readAddress text = .error (.address text .invalidUser)) ∧
    ∀ drawn date (s : Delivery.Spec) attachments message,
      Message.build drawn date s.headers s.body attachments = .ok message → s.sender = text →
      ∀ recipient, s.recipients = [recipient] →
        ((∃ t cause, Envelope.parse s.sender recipient = .error (.address t cause)) ↔
          Mailbox.IsAngled (trim text.toList) ∨ Mailbox.IsAngled (trim recipient.toList)) := by
  obtain ⟨hangled, hbare⟩ := Envelope.readAddress_of_parse h
  refine ⟨⟨fun hok ha => ?_, hbare⟩, hangled, ?_⟩
  · rw [hangled ha] at hok
    cases hok
  · intro drawn date s attachments message hbuild heq recipient hsingle
    subst heq
    obtain ⟨v, vs, -, -, hrecipients, -, -⟩ := Message.exists_of_build hbuild
    have hto : s.headers.recipients = [recipient] := by
      rw [Delivery.Spec.headers, Delivery.Spec.disclosed, hsingle]
    rw [hto] at hrecipients
    obtain ⟨b, hb⟩ := Message.exists_of_renderRecipients hrecipients
    exact Envelope.parse_eq_error_iff h hb

/-- a mailbox with a name passes into the header of a message, and not into its envelope -/
theorem readAddress_named_mailbox :
    hasBreak "Ops <ops@example.com>".toList = false ∧
    Mailbox.parse "Ops <ops@example.com>".toList = .ok ⟨"Ops".toList, ⟨"ops".toList, "example.com".toList⟩⟩ ∧
    (Message.build ["=_0123456789abcdef0123456789abcdef".toList] []
      (Delivery.Spec.mk "a@b.co" "Hi" "" [] ["Ops <ops@example.com>"]).headers "" []).isOk = true ∧
    Envelope.readAddress "Ops <ops@example.com>" = .error (.address "Ops <ops@example.com>" .invalidUser) ∧
    Envelope.parse "a@b.co" "Ops <ops@example.com>" = .error (.address "Ops <ops@example.com>" .invalidUser) := by
  decide +kernel

theorem readAddress_bare_mailbox :
    Mailbox.parse "ops@example.com".toList = .ok ⟨[], ⟨"ops".toList, "example.com".toList⟩⟩ ∧
    ¬ Mailbox.IsAngled (trim "ops@example.com".toList) ∧
    Envelope.readAddress "ops@example.com" = .ok ⟨"ops".toList, "example.com".toList⟩ := by
  have hparse : Mailbox.parse "ops@example.com".toList = .ok ⟨[], ⟨"ops".toList, "example.com".toList⟩⟩ := by
    decide +kernel
  have hbare : ¬ Mailbox.IsAngled (trim "ops@example.com".toList) := by
    intro h
    obtain ⟨name, addr, hs⟩ := h
    have hlast : (trim "ops@example.com".toList).getLast? = some 'm' := by decide
    rw [hs] at hlast
    simp [List.getLast?_append, List.getLast?_cons] at hlast
  exact ⟨hparse, hbare, (readAddress_eq_ok_iff hparse).1.2 hbare⟩

end SheetPost.Mail
