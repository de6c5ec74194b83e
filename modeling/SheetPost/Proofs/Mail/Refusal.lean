/-
Why a message is not built. Line breaks are looked for before anything is read as a mailbox, in `From` and `Subject` and
then in `To`; mailboxes are read in the order of the message, `From` and then `To`; a boundary is drawn last. So of
several faults a fixed one is named, and none of the first two kinds depends on the text or on the attachments.

Main statement: for each result of `build`, just when it arises (`build_results`).
-/
import SheetPost.Proofs.Mail.Build
import SheetPost.Proofs.Text.Search

namespace SheetPost.Mail.Message

open SheetPost.Text

/-! ## Faults -/

/-- the first field with a line break, where those of `To` come last -/
inductive FirstBreak (h : Headers) : Field → Prop where
  | sender : hasBreak h.sender.toList = true → FirstBreak h .sender
  | subject : hasBreak h.sender.toList = false → hasBreak h.subject.toList = true → FirstBreak h .subject
  | recipient {r : String} : hasBreak h.sender.toList = false → hasBreak h.subject.toList = false →
      r ∈ h.recipients → hasBreak r.toList = true → FirstBreak h .recipient

/-- the value is an address, with a name or without -/
def IsMailbox (value : String) : Prop := ∃ m, Mailbox.parse value.toList = .ok m

/-- sender and recipients are mailboxes -/
def Addressed (h : Headers) : Prop := ∀ value ∈ h.sender :: h.recipients, IsMailbox value

/-- the first value that is no mailbox, and its field -/
inductive FirstInvalid (h : Headers) : Field → String → Prop where
  | sender : ¬ IsMailbox h.sender → FirstInvalid h .sender h.sender
  | recipient {before after : List String} {value : String} : IsMailbox h.sender →
      h.recipients = before ++ value :: after → (∀ r ∈ before, IsMailbox r) → ¬ IsMailbox value →
      FirstInvalid h .recipient value

/-- a delimiter of the boundary stands in a body or in the value of a field -/
def Occurs (parts : List Part) (boundary : List Char) : Prop :=
  ∃ p ∈ parts, '-' :: '-' :: boundary <:+: p.body ∨ ∃ f ∈ p.fields, '-' :: '-' :: boundary <:+: f.2

/-- the parts of a message with this text and these attachments -/
def partsOf (text : String) (attachments : List Attachment) : List Part :=
  bodyPart text :: attachments.map attachmentPart

/-! ## One fault at a time -/

theorem FirstBreak.not_unbroken {h : Headers} {field : Field} (hb : FirstBreak h field) : ¬ Unbroken h := by
  intro hu
  cases hb with
  | sender hs => exact absurd hs (by simp [hu.sender])
  | subject _ hs => exact absurd hs (by simp [hu.subject])
  | recipient _ _ hr hs => exact absurd hs (by simp [hu.recipients _ hr])

theorem FirstBreak.unique {h : Headers} {a b : Field} (ha : FirstBreak h a) (hb : FirstBreak h b) : a = b := by
  cases ha <;> cases hb <;> simp_all

theorem FirstInvalid.not_addressed {h : Headers} {field : Field} {value : String} (hv : FirstInvalid h field value) :
    ¬ Addressed h := by
  intro ha
  cases hv with
  | sender hs => exact hs (ha _ List.mem_cons_self)
  | recipient _ hrecipients _ hr => exact hr (ha _ (by simp [hrecipients]))

/-- of two places with nothing invalid before either, neither is before the other -/
theorem FirstInvalid.unique {h : Headers} {a b : Field} {v w : String} (ha : FirstInvalid h a v)
    (hb : FirstInvalid h b w) : a = b ∧ v = w := by
  cases ha with
  | sender hs =>
    cases hb with
    | sender _ => exact ⟨rfl, rfl⟩
    | recipient hs' => exact absurd hs' hs
  | @recipient before after _ hs hl hbefore hv =>
    cases hb with
    | sender hs' => exact absurd hs hs'
    | @recipient before' after' _ _ hl' hbefore' hw =>
      refine ⟨rfl, ?_⟩
      rw [hl] at hl'
      rcases List.append_eq_append_iff.1 hl' with ⟨rest, hr, ht⟩ | ⟨rest, hr, ht⟩
      · cases rest with
        | nil => exact (List.cons.inj ht).1
        | cons x rest =>
          rw [List.cons_append, List.cons.injEq] at ht
          exact absurd (hbefore' v (by simp [hr, ht.1])) hv
      · cases rest with
        | nil => exact (List.cons.inj ht).1.symm
        | cons x rest =>
          rw [List.cons_append, List.cons.injEq] at ht
          exact absurd (hbefore w (by simp [hr, ht.1])) hw

/-! ## Checks -/

theorem firstBreak_of_find? {h : Headers} {f : Field × String}
    (hf : (checked h).find? (fun f => hasBreak f.2.toList) = some f) : FirstBreak h f.1 := by
  rw [checked, List.find?_cons] at hf
  cases hs : hasBreak h.sender.toList with
  | true =>
    rw [hs] at hf
    cases hf
    exact .sender hs
  | false =>
    rw [hs] at hf
    simp only [List.find?_cons] at hf
    cases hj : hasBreak h.subject.toList with
    | true =>
      rw [hj] at hf
      cases hf
      exact .subject hs hj
    | false =>
      rw [hj] at hf
      have hbreak := List.find?_some hf
      obtain ⟨r, hr, rfl⟩ := List.mem_map.1 (List.mem_of_find?_eq_some hf)
      exact .recipient hs hj hr hbreak

theorem unbroken_of_find? {h : Headers} (hf : (checked h).find? (fun f => hasBreak f.2.toList) = none) :
    Unbroken h :=
  unbroken_of_checked (by simpa using List.find?_eq_none.1 hf)

theorem renderMailbox_cases (field : Field) (value : String) :
    (IsMailbox value ∧ ∃ v, renderMailbox field value = .ok v) ∨
      (¬ IsMailbox value ∧ renderMailbox field value = .error (.mailbox field value)) := by
  unfold renderMailbox IsMailbox
  cases Mailbox.parse value.toList with
  | ok m => exact .inl ⟨⟨m, rfl⟩, m.render, rfl⟩
  | error e => exact .inr ⟨by simp, rfl⟩

/-- the values before the first that is no mailbox are read and forgotten -/
theorem renderMailboxes_cases (field : Field) (values : List String) :
    ((∀ r ∈ values, IsMailbox r) ∧ ∃ vs, values.mapM (renderMailbox field) = .ok vs) ∨
      ∃ before value after, values = before ++ value :: after ∧ (∀ r ∈ before, IsMailbox r) ∧ ¬ IsMailbox value ∧
        values.mapM (renderMailbox field) = .error (.mailbox field value) := by
  induction values with
  | nil => exact .inl ⟨List.forall_mem_nil _, [], rfl⟩
  | cons value values ih =>
    rw [List.mapM_cons]
    rcases renderMailbox_cases field value with ⟨hvalue, v, hv⟩ | ⟨hvalue, hv⟩
    · rw [hv]
      rcases ih with ⟨hvalues, vs, hvs⟩ | ⟨before, bad, after, rfl, hbefore, hbad, he⟩
      · rw [hvs]
        exact .inl ⟨List.forall_mem_cons.2 ⟨hvalue, hvalues⟩, v :: vs, rfl⟩
      · rw [he]
        exact .inr ⟨value :: before, bad, after, rfl, List.forall_mem_cons.2 ⟨hvalue, hbefore⟩, hbad, rfl⟩
    · rw [hv]
      exact .inr ⟨[], value, values, rfl, List.forall_mem_nil _, hvalue, rfl⟩

theorem renderRecipients_cases (recipients : List String) :
    ((∀ r ∈ recipients, IsMailbox r) ∧ ∃ v, renderRecipients recipients = .ok v) ∨
      ∃ before value after, recipients = before ++ value :: after ∧ (∀ r ∈ before, IsMailbox r) ∧ ¬ IsMailbox value ∧
        renderRecipients recipients = .error (.mailbox .recipient value) := by
  unfold renderRecipients
  split
  · next hempty =>
    rw [List.isEmpty_iff] at hempty
    subst hempty
    exact .inl ⟨List.forall_mem_nil _, undisclosed, rfl⟩
  · rcases renderMailboxes_cases .recipient recipients with ⟨hall, vs, hvs⟩ | ⟨before, value, after, hl, hb, hv, he⟩
    · rw [hvs]
      exact .inl ⟨hall, join [',', ' '] vs, rfl⟩
    · rw [he]
      exact .inr ⟨before, value, after, hl, hb, hv, rfl⟩

theorem clashes_iff {parts : List Part} {boundary : List Char} : clashes parts boundary = true ↔ Occurs parts boundary := by
  simp only [clashes, Occurs, List.any_eq_true, Bool.or_eq_true, occursIn_iff]

theorem pickBoundary?_eq_none_iff {parts : List Part} {first second third : List Char} {later : List (List Char)} :
    pickBoundary? parts (first :: second :: third :: later) = none ↔
      ∀ b ∈ [first, second, third], Occurs parts b := by
  have htake : (first :: second :: third :: later).take boundaryAttempts = [first, second, third] := rfl
  rw [pickBoundary?, htake, List.find?_eq_none]
  simp only [Bool.not_eq_true', Bool.not_eq_false, clashes_iff]

/-! ## Results -/

/-- what is given back for a header whose faults are known; `clash` says that no boundary will do -/
inductive Result (h : Headers) (clash : Prop) : Except BuildError Message → Prop where
  | lineBreak {field : Field} : FirstBreak h field → Result h clash (.error (.lineBreak field))
  | mailbox {field : Field} {value : String} : Unbroken h → FirstInvalid h field value →
      Result h clash (.error (.mailbox field value))
  | noBoundary : Unbroken h → Addressed h → clash → Result h clash (.error .noBoundary)
  | built {m : Message} : Unbroken h → Addressed h → ¬ clash → Result h clash (.ok m)

section Results

variable {h : Headers} {clash : Prop} {r : Except BuildError Message}

theorem Result.lineBreak_iff (hr : Result h clash r) (field : Field) :
    r = .error (.lineBreak field) ↔ FirstBreak h field := by
  constructor
  · rintro rfl
    cases hr with
    | lineBreak hb => exact hb
  · intro hb
    cases hr with
    | lineBreak hb' => rw [hb'.unique hb]
    | mailbox hu _ => exact absurd hu hb.not_unbroken
    | noBoundary hu _ _ => exact absurd hu hb.not_unbroken
    | built hu _ _ => exact absurd hu hb.not_unbroken

theorem Result.mailbox_iff (hr : Result h clash r) (field : Field) (value : String) :
    r = .error (.mailbox field value) ↔ Unbroken h ∧ FirstInvalid h field value := by
  constructor
  · rintro rfl
    cases hr with
    | mailbox hu hv => exact ⟨hu, hv⟩
  · rintro ⟨hu, hv⟩
    cases hr with
    | lineBreak hb => exact absurd hu hb.not_unbroken
    | mailbox _ hv' => rw [(hv'.unique hv).1, (hv'.unique hv).2]
    | noBoundary _ ha _ => exact absurd ha hv.not_addressed
    | built _ ha _ => exact absurd ha hv.not_addressed

theorem Result.noBoundary_iff (hr : Result h clash r) :
    r = .error .noBoundary ↔ Unbroken h ∧ Addressed h ∧ clash := by
  constructor
  · rintro rfl
    cases hr with
    | noBoundary hu ha hc => exact ⟨hu, ha, hc⟩
  · rintro ⟨hu, ha, hc⟩
    cases hr with
    | lineBreak hb => exact absurd hu hb.not_unbroken
    | mailbox _ hv => exact absurd ha hv.not_addressed
    | noBoundary _ _ _ => rfl
    | built _ _ hn => exact absurd hc hn

theorem Result.ok_iff (hr : Result h clash r) : (∃ m, r = .ok m) ↔ Unbroken h ∧ Addressed h ∧ ¬ clash := by
  constructor
  · rintro ⟨m, rfl⟩
    cases hr with
    | built hu ha hn => exact ⟨hu, ha, hn⟩
  · rintro ⟨hu, ha, hn⟩
    cases hr with
    | lineBreak hb => exact absurd hu hb.not_unbroken
    | mailbox _ hv => exact absurd ha hv.not_addressed
    | noBoundary _ _ hc => exact absurd hc hn
    | built _ _ _ => exact ⟨_, rfl⟩

end Results

theorem result_build {clash : Prop} (drawn : List (List Char)) (date : List Char) (h : Headers) (text : String)
    (attachments : List Attachment) (hclash : pickBoundary? (partsOf text attachments) drawn = none ↔ clash) :
    Result h clash (build drawn date h text attachments) := by
  unfold partsOf at hclash
  unfold build
  cases hf : (checked h).find? fun f => hasBreak f.2.toList with
  | some f => exact .lineBreak (firstBreak_of_find? hf)
  | none =>
    have hunbroken := unbroken_of_find? hf
    simp only
    rcases renderMailbox_cases .sender h.sender with ⟨hsender, v, hv⟩ | ⟨hsender, hv⟩
    · rw [hv]
      rcases renderRecipients_cases h.recipients with ⟨hall, vs, hvs⟩ | ⟨before, value, after, hl, hb, hbad, he⟩
      · have haddressed : Addressed h := List.forall_mem_cons.2 ⟨hsender, hall⟩
        rw [hvs]
        simp only [bind, Except.bind]
        cases hp : pickBoundary? (bodyPart text :: attachments.map attachmentPart) drawn with
        | none => exact .noBoundary hunbroken haddressed (hclash.1 hp)
        | some boundary => exact .built hunbroken haddressed fun hc => by simp [hclash.2 hc] at hp
      · rw [he]
        exact .mailbox hunbroken (.recipient hsender hl hb hbad)
    · rw [hv]
      exact .mailbox hunbroken (.sender hsender)

/-- **When a message is not built.** A line break is named just if one stands in `From`, `Subject` or `To`, with the
first such field in this order. Otherwise the first value in `From` and then `To` that is no mailbox is named as it was
given, just if there is one. Otherwise the message is built, unless the delimiters of three boundaries in a row stand in
the parts. What is named depends on the header only, and without recipients nothing about `To` is ever named. -/
theorem build_results (first second third : List Char) (later : List (List Char)) (date : List Char) (h : Headers)
    (text : String) (attachments : List Attachment) :
    (∀ field, build (first :: second :: third :: later) date h text attachments = .error (.lineBreak field) ↔
      FirstBreak h field) ∧
    (∀ field value,
      build (first :: second :: third :: later) date h text attachments = .error (.mailbox field value) ↔
        Unbroken h ∧ FirstInvalid h field value) ∧
    (build (first :: second :: third :: later) date h text attachments = .error .noBoundary ↔
      Unbroken h ∧ Addressed h ∧ ∀ b ∈ [first, second, third], Occurs (partsOf text attachments) b) ∧
    ((∃ m, build (first :: second :: third :: later) date h text attachments = .ok m) ↔
      Unbroken h ∧ Addressed h ∧ ¬ ∀ b ∈ [first, second, third], Occurs (partsOf text attachments) b) ∧
    (∀ e, e ≠ .noBoundary → (build (first :: second :: third :: later) date h text attachments = .error e ↔
      ∀ drawn date' text' attachments', build drawn date' h text' attachments' = .error e)) ∧
    (h.recipients = [] → ∀ value,
      build (first :: second :: third :: later) date h text attachments ≠ .error (.lineBreak .recipient) ∧
      build (first :: second :: third :: later) date h text attachments ≠ .error (.mailbox .recipient value)) := by
  have hr := result_build (first :: second :: third :: later) date h text attachments pickBoundary?_eq_none_iff
  refine ⟨hr.lineBreak_iff, hr.mailbox_iff, hr.noBoundary_iff, hr.ok_iff, ?_, ?_⟩
  · intro e he
    refine ⟨fun hb drawn date' text' attachments' => ?_, fun hb => hb _ _ _ _⟩
    have hr' := result_build drawn date' h text' attachments' Iff.rfl
    cases e with
    | lineBreak field => exact (hr'.lineBreak_iff field).2 ((hr.lineBreak_iff field).1 hb)
    | mailbox field value => exact (hr'.mailbox_iff field value).2 ((hr.mailbox_iff field value).1 hb)
    | noBoundary => exact absurd rfl he
  · intro hempty value
    constructor
    · intro hb
      cases (hr.lineBreak_iff _).1 hb with
      | recipient _ _ hmem _ => simp [hempty] at hmem
    · intro hb
      cases ((hr.mailbox_iff _ _).1 hb).2 with
      | recipient _ hl _ _ => simp [hempty] at hl

-- a line break in the last field is named before the sender, which is no mailbox
example : build [] [] ⟨"nobody", ["a\nb"], ""⟩ "" [] = .error (.lineBreak .recipient) := by decide +kernel

end SheetPost.Mail.Message
