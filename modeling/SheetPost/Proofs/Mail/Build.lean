/-
What is behind a message that was built: its header texts have no line breaks, its mailboxes were read, and its boundary
was one of those drawn.
-/
import Mathlib.Data.List.Forall2
import SheetPost.Mail.Message

namespace SheetPost.Mail.Message

open SheetPost.Text

/-- no text of the user goes over a line break -/
structure Unbroken (h : Headers) : Prop where
  sender : hasBreak h.sender.toList = false
  subject : hasBreak h.subject.toList = false
  recipients : ∀ r ∈ h.recipients, hasBreak r.toList = false

theorem unbroken_of_checked {h : Headers} (hall : ∀ f ∈ checked h, hasBreak f.2.toList = false) : Unbroken h where
  sender := hall (.sender, h.sender) (by simp [checked])
  subject := hall (.subject, h.subject) (by simp [checked])
  recipients r hr := hall (.recipient, r) (by simp [checked, hr])

theorem exists_of_renderMailbox {field : Field} {value : String} {v : List Char}
    (h : renderMailbox field value = .ok v) : ∃ m, Mailbox.parse value.toList = .ok m ∧ v = m.render := by
  unfold renderMailbox at h
  cases hm : Mailbox.parse value.toList with
  | error e => rw [hm] at h; cases h
  | ok m =>
    rw [hm] at h
    cases h
    exact ⟨m, rfl, rfl⟩

theorem exists_of_renderMailboxes {field : Field} {values : List String} {vs : List (List Char)}
    (h : values.mapM (renderMailbox field) = .ok vs) :
    ∃ ms, List.Forall₂ (fun value m => Mailbox.parse value.toList = .ok m) values ms ∧ vs = ms.map Mailbox.render := by
  induction values generalizing vs with
  | nil =>
    cases h
    exact ⟨[], .nil, rfl⟩
  | cons value values ih =>
    rw [List.mapM_cons] at h
    cases hv : renderMailbox field value with
    | error e =>
      rw [hv] at h
      cases h
    | ok v =>
      cases hvs : values.mapM (renderMailbox field) with
      | error e =>
        rw [hv, hvs] at h
        cases h
      | ok rest =>
        rw [hv, hvs] at h
        cases h
        obtain ⟨m, hm, rfl⟩ := exists_of_renderMailbox hv
        obtain ⟨ms, hms, rfl⟩ := ih hvs
        exact ⟨m :: ms, .cons hm hms, rfl⟩

/-- without recipients a fixed text stands in their place, else their mailboxes with commas between them -/
theorem exists_mailboxes_of_renderRecipients {recipients : List String} {v : List Char}
    (h : renderRecipients recipients = .ok v) :
    ∃ ms, List.Forall₂ (fun value m => Mailbox.parse value.toList = .ok m) recipients ms ∧
      v = if recipients = [] then undisclosed else join [',', ' '] (ms.map Mailbox.render) := by
  unfold renderRecipients at h
  split at h
  · next hempty =>
    cases h
    rw [List.isEmpty_iff] at hempty
    subst hempty
    exact ⟨[], .nil, (if_pos rfl).symm⟩
  · next hfull =>
    rw [List.isEmpty_iff] at hfull
    cases hvs : recipients.mapM (renderMailbox .recipient) with
    | error e =>
      rw [hvs] at h
      cases h
    | ok vs =>
      rw [hvs] at h
      cases h
      obtain ⟨ms, hms, rfl⟩ := exists_of_renderMailboxes hvs
      exact ⟨ms, hms, (if_neg hfull).symm⟩

/-- what holds of every mailbox as written holds of those of a list -/
theorem forall_mem_renders {P : List Char → Prop} {values : List String} {ms : List Mailbox}
    (h : ∀ value ∈ values, ∀ m, Mailbox.parse value.toList = .ok m → P m.render)
    (hms : List.Forall₂ (fun value m => Mailbox.parse value.toList = .ok m) values ms) :
    ∀ t ∈ ms.map Mailbox.render, P t := by
  induction hms with
  | nil => exact List.forall_mem_nil _
  | @cons value m values ms hm _ ih =>
    rw [List.forall_mem_cons] at h
    rw [List.map_cons, List.forall_mem_cons]
    exact ⟨h.1 m hm, ih h.2⟩

theorem exists_of_renderRecipients {recipient : String} {v : List Char}
    (h : renderRecipients [recipient] = .ok v) : ∃ m, Mailbox.parse recipient.toList = .ok m := by
  obtain ⟨ms, hms, -⟩ := exists_mailboxes_of_renderRecipients h
  cases hms with
  | cons hm _ => exact ⟨_, hm⟩

/-- what a message that was built is made of -/
theorem exists_of_build {drawn : List (List Char)} {date : List Char} {h : Headers} {text : String}
    {attachments : List Attachment} {m : Message} (hm : build drawn date h text attachments = .ok m) :
    ∃ sender recipients, (∀ f ∈ checked h, hasBreak f.2.toList = false) ∧
      renderMailbox .sender h.sender = .ok sender ∧ renderRecipients h.recipients = .ok recipients ∧
      pickBoundary? (bodyPart text :: attachments.map attachmentPart) drawn = some m.boundary ∧
      m.text = block (topFields sender recipients h.subject.toList date m.boundary)
        (multipart m.boundary (bodyPart text :: attachments.map attachmentPart)) := by
  unfold build at hm
  cases hf : (checked h).find? fun f => hasBreak f.2.toList with
  | some f => rw [hf] at hm; cases hm
  | none =>
    rw [hf] at hm
    simp only at hm
    cases hs : renderMailbox .sender h.sender with
    | error e => rw [hs] at hm; cases hm
    | ok sender =>
      cases hr : renderRecipients h.recipients with
      | error e => rw [hs, hr] at hm; cases hm
      | ok recipients =>
        cases hp : pickBoundary? (bodyPart text :: attachments.map attachmentPart) drawn with
        | none =>
          rw [hs, hr] at hm
          simp only [bind, Except.bind, hp] at hm
          cases hm
        | some boundary =>
          rw [hs, hr] at hm
          simp only [bind, Except.bind, hp] at hm
          cases hm
          refine ⟨sender, recipients, fun f hmem => ?_, rfl, rfl, rfl, rfl⟩
          simpa using List.find?_eq_none.1 hf f hmem

theorem unbroken_of_build {drawn : List (List Char)} {date : List Char} {h : Headers} {text : String}
    {attachments : List Attachment} {m : Message} (hm : build drawn date h text attachments = .ok m) : Unbroken h := by
  obtain ⟨-, -, hchecked, -⟩ := exists_of_build hm
  exact unbroken_of_checked hchecked

end SheetPost.Mail.Message
