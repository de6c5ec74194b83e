/-
What a message is made of comes out of it again: the body text in the first part, and every attachment in a part of its
own, byte for byte and in order.

Main statement: a reader of the bytes of a message that was built finds the text and the attachments
(`exists_read?_of_build`). It takes any text, names, payloads and subject; the kinds of the attachments are constants
without line breaks, and boundaries are drawn as tokens (`IsToken`).
-/
import Mathlib.Data.List.Forall2
import SheetPost.Proofs.Mail.Build
import SheetPost.Proofs.Mail.HeaderValue
import SheetPost.Proofs.Mail.Parts
import SheetPost.Proofs.Mail.QuotedPrintable
import SheetPost.Proofs.Text.Utf8

namespace SheetPost.Mail.Message

open SheetPost.Text

/-! ## Boundaries -/

/-- a boundary as chance draws it: `=_` and 32 hexadecimal digits in lower case -/
def IsToken (b : List Char) : Prop :=
  ∃ digits, b = '=' :: '_' :: digits ∧ digits.length = 32 ∧ ∀ c ∈ digits, c ∈ "0123456789abcdef".toList

instance (b : List Char) : Decidable (IsToken b) :=
  decidable_of_iff
    (b.take 2 = ['=', '_'] ∧ (b.drop 2).length = 32 ∧
      (b.drop 2).all (fun c => "0123456789abcdef".toList.contains c) = true) <| by
    simp only [List.all_eq_true, List.contains_iff_mem]
    constructor
    · intro h
      refine ⟨b.drop 2, ?_, h.2⟩
      calc b = b.take 2 ++ b.drop 2 := (List.take_append_drop 2 b).symm
        _ = '=' :: '_' :: b.drop 2 := by rw [h.1]; rfl
    · intro h
      obtain ⟨digits, rfl, hd⟩ := h
      exact ⟨rfl, hd⟩

theorem IsToken.not_mem {b : List Char} (h : IsToken b) {x : Char} (hx : x ∉ "=_0123456789abcdef".toList) : x ∉ b := by
  obtain ⟨digits, rfl, -, hd⟩ := h
  intro hm
  rcases List.mem_cons.1 hm with rfl | hm
  · exact hx (by decide)
  rcases List.mem_cons.1 hm with rfl | hm
  · exact hx (by decide)
  · have hsub : "=_0123456789abcdef".toList = '=' :: '_' :: "0123456789abcdef".toList := by decide
    rw [hsub] at hx
    exact hx (List.mem_cons_of_mem _ (List.mem_cons_of_mem _ (hd x hm)))

/-- the content type of a message names its boundary -/
theorem readBoundary?_token {b : List Char} (h : IsToken b) :
    readBoundary? ("multipart/mixed; boundary=\"".toList ++ (b ++ ['"'])) = some b := by
  have htext : "multipart/mixed; boundary=\"".toList = "multipart/mixed; ".toList ++ ("boundary=".toList ++ ['"']) := by
    decide
  have hlead : "boundary=".toList = 'b' :: "oundary=".toList := by decide
  have hno : ¬ "boundary=".toList <:+: "multipart/mixed; ".toList := occursIn_eq_false_iff.1 (by decide)
  have hquoted : QuotedString.decode? ('"' :: (b ++ ['"'])) = some b := by
    have := QuotedString.decode?_encode b
    rwa [QuotedString.encode, QuotedString.body_of_not_mem (h.not_mem (by decide)) (h.not_mem (by decide))] at this
  rw [hlead] at hno
  rw [readBoundary?, htext, List.append_assoc, List.append_assoc, hlead, cutAtText_append (by decide) hno,
    Option.bind_some]
  exact hquoted

/-! ## Fields -/

/-- a field name of letters and hyphens that begins with a letter -/
theorem isNamed_of_name {name value : List Char} (hn : name.head?.any Char.isAlpha = true)
    (hc : name.all (fun c => c != ':' && c != '\r') = true) : IsNamed (name, value) := by
  have hall : ∀ c ∈ name, c ≠ ':' ∧ c ≠ '\r' := by simpa using hc
  refine ⟨?_, fun h => (hall _ h).1 rfl, fun h => (hall _ h).2 rfl⟩
  cases name with
  | nil => cases hn
  | cons c name => exact ⟨c, rfl, hn⟩

theorem isField_of_name {name value : List Char} (hn : name.head?.any Char.isAlpha = true)
    (hc : name.all (fun c => c != ':' && c != '\r') = true) (hv : Folded value) : IsField (name, value) :=
  ⟨isNamed_of_name hn hc, hv.continued⟩

theorem isPart_bodyPart (text : String) : IsPart (bodyPart text) := by
  refine ⟨by simp [bodyPart], ?_⟩
  intro f hf
  simp only [bodyPart, List.mem_cons, List.not_mem_nil, or_false] at hf
  rcases hf with rfl | rfl
  · exact isField_of_name (by decide) (by decide) (folded_of_hasBreak (by decide))
  · exact isField_of_name (by decide) (by decide) (folded_of_hasBreak (by decide))

theorem isHeaded_attachmentPart (a : Attachment) : IsHeaded (attachmentPart a) := by
  refine ⟨by simp [attachmentPart], ?_⟩
  intro f hf
  simp only [attachmentPart, List.mem_cons, List.not_mem_nil, or_false] at hf
  rcases hf with rfl | rfl | rfl
  · exact isNamed_of_name (by decide) (by decide)
  · exact isNamed_of_name (by decide) (by decide)
  · exact isNamed_of_name (by decide) (by decide)

/-- whatever the file is called -/
theorem isPart_attachmentPart {a : Attachment} (h : Continued a.mimeType.toList) : IsPart (attachmentPart a) := by
  refine ⟨by simp [attachmentPart], ?_⟩
  intro f hf
  refine ⟨(isHeaded_attachmentPart a).named f hf, ?_⟩
  simp only [attachmentPart, List.mem_cons, List.not_mem_nil, or_false] at hf
  rcases hf with rfl | rfl | rfl
  · exact h
  · exact (folded_of_hasBreak (by decide)).continued
  · exact (folded_disposition _).continued

theorem hasBreak_of_isToken {b : List Char} (h : IsToken b) : hasBreak b = false :=
  hasBreak_of_forall (fun _ hc => hc) (h.not_mem (by decide)) (h.not_mem (by decide))

theorem IsToken.hasBreak_contentType {b : List Char} (h : IsToken b) :
    hasBreak ("multipart/mixed; boundary=\"".toList ++ (b ++ ['"'])) = false :=
  hasBreak_append (by decide) (hasBreak_append (hasBreak_of_isToken h) (by decide))

theorem isField_topFields {sender recipients subject date boundary : List Char} (hs : Folded sender)
    (hr : Folded recipients) (hj : hasBreak subject = false) (hd : hasBreak date = false) (hb : IsToken boundary) :
    ∀ f ∈ topFields sender recipients subject date boundary, IsField f := by
  intro f hf
  simp only [topFields, List.mem_cons, List.not_mem_nil, or_false] at hf
  rcases hf with rfl | rfl | rfl | rfl | rfl | rfl
  · exact isField_of_name (by decide) (by decide) hs
  · exact isField_of_name (by decide) (by decide) hr
  · exact isField_of_name (by decide) (by decide) (folded_encode hj)
  · exact isField_of_name (by decide) (by decide) (folded_of_hasBreak hd)
  · exact isField_of_name (by decide) (by decide) (folded_of_hasBreak (by decide))
  · exact isField_of_name (by decide) (by decide) (folded_of_hasBreak hb.hasBreak_contentType)

theorem folded_renders {values : List String} {ms : List Mailbox}
    (hb : ∀ value ∈ values, hasBreak value.toList = false)
    (hms : List.Forall₂ (fun value m => Mailbox.parse value.toList = .ok m) values ms) :
    ∀ t ∈ ms.map Mailbox.render, Folded t :=
  forall_mem_renders (fun value hvalue _ hm => folded_render (hb value hvalue) hm) hms

theorem folded_renderRecipients {recipients : List String} {v : List Char}
    (hb : ∀ r ∈ recipients, hasBreak r.toList = false) (h : renderRecipients recipients = .ok v) : Folded v := by
  obtain ⟨ms, hms, rfl⟩ := exists_mailboxes_of_renderRecipients h
  split
  · exact folded_of_hasBreak (by decide)
  · exact Folded.join (folded_of_hasBreak (by decide)) (folded_renders hb hms)

/-! ## Parts read back -/

theorem lookup_seen (name : List Char) (fs : List (List Char × List Char)) :
    (fs.map seen).lookup name = (fs.lookup name).map unfolded := by
  induction fs with
  | nil => rfl
  | cons f fs ih =>
    obtain ⟨key, value⟩ := f
    rw [List.map_cons, seen, List.lookup_cons, List.lookup_cons, ih]
    cases name == key with
    | true => rfl
    | false => rfl

theorem lookup_behind {name key value : List Char} {fs : List (List Char × List Char)} (h : (name == key) = false) :
    List.lookup name ((key, value) :: fs) = List.lookup name fs := by
  rw [List.lookup_cons, h]

theorem lookup_contentType (sender recipients subject date boundary : List Char) :
    (topFields sender recipients subject date boundary).lookup "Content-Type".toList =
      some ("multipart/mixed; boundary=\"".toList ++ (boundary ++ ['"'])) := by
  unfold topFields
  rw [lookup_behind, lookup_behind, lookup_behind, lookup_behind, lookup_behind, List.lookup_cons_self]
  all_goals decide

/-- the part of a text, read back -/
structure CarriesText (text : List Char) (p : Part) : Prop where
  encoding : p.fields.lookup "Content-Transfer-Encoding".toList = some "quoted-printable".toList
  content : QuotedPrintable.decode? p.body = some (Utf8.encode (QuotedPrintable.withMailBreaks text))

/-- the part of an attachment, read back -/
structure Carries (a : Attachment) (p : Part) : Prop where
  kind : p.fields.lookup "Content-Type".toList = some a.mimeType.toList
  encoding : p.fields.lookup "Content-Transfer-Encoding".toList = some "base64".toList
  disposition : p.fields.lookup "Content-Disposition".toList = some (unfolded (Disposition.encode a.fileName.toList))
  payload : Base64.readWrapped? p.body = some a.payload

theorem carriesText_bodyPart (text : String) : CarriesText text.toList (seenPart (bodyPart text)) where
  encoding := by
    have hlookup : (bodyPart text).fields.lookup "Content-Transfer-Encoding".toList =
        some "quoted-printable".toList := by
      unfold bodyPart
      rw [lookup_behind, List.lookup_cons_self]
      decide
    rw [seenPart, lookup_seen, hlookup]
    decide
  content := QuotedPrintable.decode?_encode text.toList

theorem carries_attachmentPart {a : Attachment} (h : hasBreak a.mimeType.toList = false) :
    Carries a (seenPart (attachmentPart a)) where
  kind := by
    have hlookup : (attachmentPart a).fields.lookup "Content-Type".toList = some a.mimeType.toList :=
      List.lookup_cons_self
    rw [seenPart, lookup_seen, hlookup, Option.map_some, unfolded_of_hasBreak h]
  encoding := by
    have hlookup : (attachmentPart a).fields.lookup "Content-Transfer-Encoding".toList = some "base64".toList := by
      unfold attachmentPart
      rw [lookup_behind, List.lookup_cons_self]
      decide
    rw [seenPart, lookup_seen, hlookup]
    decide
  disposition := by
    have hlookup : (attachmentPart a).fields.lookup "Content-Disposition".toList =
        some (Disposition.encode a.fileName.toList) := by
      unfold attachmentPart
      rw [lookup_behind, lookup_behind, List.lookup_cons_self]
      all_goals decide
    rw [seenPart, lookup_seen, hlookup, Option.map_some]
  payload := Base64.readWrapped?_wrapped a.payload

/-- a result that is there, and what follows from its being the result -/
theorem exists_ok_and {ε α : Type} {x : Except ε α} {P : α → Prop} (hx : x.isOk = true) (h : ∀ a, x = .ok a → P a) :
    ∃ a, x = .ok a ∧ P a := by
  cases x with
  | error e => cases hx
  | ok a => exact ⟨a, rfl, h a rfl⟩

/-- a message that was built is a block of its six fields and the parts behind it, between delimiters of its boundary -/
theorem exists_topFields_of_build {drawn : List (List Char)} {now : Calendar.Moment} {h : Headers} {text : String}
    {attachments : List Attachment} {m : Message} (hdrawn : ∀ b ∈ drawn, IsToken b)
    (hm : build drawn (Calendar.Rfc2822.write now) h text attachments = .ok m) :
    ∃ sender recipients, renderMailbox .sender h.sender = .ok sender ∧
      renderRecipients h.recipients = .ok recipients ∧ IsToken m.boundary ∧
      (∀ f ∈ topFields sender recipients h.subject.toList (Calendar.Rfc2822.write now) m.boundary, IsField f) ∧
      clashes (bodyPart text :: attachments.map attachmentPart) m.boundary = false ∧
      m.text = block (topFields sender recipients h.subject.toList (Calendar.Rfc2822.write now) m.boundary)
        (multipart m.boundary (bodyPart text :: attachments.map attachmentPart)) := by
  obtain ⟨sender, recipients, hchecked, hs, hr, hb, htext⟩ := exists_of_build hm
  have htoken : IsToken m.boundary := hdrawn m.boundary (List.mem_of_mem_take (List.mem_of_find?_eq_some hb))
  have hunbroken := unbroken_of_checked hchecked
  have hsender : Folded sender := folded_renderMailbox hunbroken.sender hs
  have hrecipients : Folded recipients := folded_renderRecipients hunbroken.recipients hr
  have htop := isField_topFields hsender hrecipients hunbroken.subject (Calendar.Rfc2822.hasBreak_write now) htoken
  exact ⟨sender, recipients, hs, hr, htoken, htop, by simpa using List.find?_some hb, htext⟩

/-- the fields are read back from the bytes -/
theorem readBlock?_bytes {m : Message} {fields : List (List Char × List Char)} {rest : List Char} (hne : fields ≠ [])
    (hfields : ∀ f ∈ fields, IsField f) (htext : m.text = block fields rest) :
    (Utf8.decode? m.bytes).bind readBlock? = some (fields.map seen, rest) := by
  rw [bytes, Utf8.decode?_encode, Option.bind_some, htext, readBlock?_block hne hfields]

/-- the boundary that the fields of a message name -/
theorem lookup_boundary {b : List Char} (hb : IsToken b) (sender recipients subject date : List Char) :
    (((topFields sender recipients subject date b).map seen).lookup "Content-Type".toList).bind readBoundary? =
      some b := by
  rw [lookup_seen, lookup_contentType, Option.map_some, unfolded_of_hasBreak hb.hasBreak_contentType, Option.bind_some,
    readBoundary?_token hb]

/-- the fields may be any that are told from each other, as long as one names the boundary -/
theorem exists_block_of_build {drawn : List (List Char)} {now : Calendar.Moment} {h : Headers} {text : String}
    {attachments : List Attachment} {m : Message} (hdrawn : ∀ b ∈ drawn, IsToken b)
    (hm : build drawn (Calendar.Rfc2822.write now) h text attachments = .ok m) :
    ∃ fields, fields ≠ [] ∧ (∀ f ∈ fields, IsField f) ∧
      ((fields.map seen).lookup "Content-Type".toList).bind readBoundary? = some m.boundary ∧ '\r' ∉ m.boundary ∧
      clashes (bodyPart text :: attachments.map attachmentPart) m.boundary = false ∧
      m.text = block fields (multipart m.boundary (bodyPart text :: attachments.map attachmentPart)) := by
  obtain ⟨sender, recipients, -, -, htoken, htop, hclear, htext⟩ := exists_topFields_of_build hdrawn hm
  exact ⟨_, by simp [topFields], htop, lookup_boundary htoken _ _ _ _, htoken.not_mem (by decide), hclear, htext⟩

/-- **A message that was built carries what it was built from**: a reader of its bytes finds one part more than there
are attachments. The first decodes to the text with every line break as mail writes it, and each of the others, in
order, to the payload of its attachment. -/
theorem exists_read?_of_build {drawn : List (List Char)} {now : Calendar.Moment} {h : Headers} {text : String}
    {attachments : List Attachment} {m : Message} (hdrawn : ∀ b ∈ drawn, IsToken b)
    (hkind : ∀ a ∈ attachments, hasBreak a.mimeType.toList = false)
    (hm : build drawn (Calendar.Rfc2822.write now) h text attachments = .ok m) :
    ∃ fields first files, (Utf8.decode? m.bytes).bind read? = some (fields, first :: files) ∧
      (first :: files).length = 1 + attachments.length ∧
      CarriesText text.toList first ∧ List.Forall₂ Carries attachments files := by
  obtain ⟨fields, hne, htop, hboundary, hb, hclear, htext⟩ := exists_block_of_build hdrawn hm
  have hparts : ∀ p ∈ bodyPart text :: attachments.map attachmentPart, IsPart p := by
    intro p hp
    rcases List.mem_cons.1 hp with rfl | hp
    · exact isPart_bodyPart text
    · obtain ⟨a, ha, rfl⟩ := List.mem_map.1 hp
      exact isPart_attachmentPart (folded_of_hasBreak (hkind a ha)).continued
  have hread := read?_multipart hne htop hb hboundary hparts hclear
  refine ⟨fields.map seen, seenPart (bodyPart text), (attachments.map attachmentPart).map seenPart, ?_, ?_,
    carriesText_bodyPart text, ?_⟩
  · rw [bytes, Utf8.decode?_encode, Option.bind_some, htext, hread]
    rfl
  · simp [Nat.add_comm]
  · rw [List.map_map, List.forall₂_map_right_iff, List.forall₂_same]
    exact fun a ha => carries_attachmentPart (hkind a ha)

/-- a text of delimiter lines, an attachment without a byte and a file name beyond ASCII -/
theorem exists_read?_of_build_delimiters :
    (∀ b ∈ ["=_0123456789abcdef0123456789abcdef".toList], IsToken b) ∧
    (∀ a ∈ [Attachment.mk "a.csv" "text/csv" [], ⟨"\u00e4.csv", "text/csv", [0x2D, 0x2D]⟩],
      hasBreak a.mimeType.toList = false) ∧
    ∃ m, build ["=_0123456789abcdef0123456789abcdef".toList]
        (Calendar.Rfc2822.write ⟨⟨2026, 10, 18⟩, ⟨9, 0, 0⟩, 0, 0⟩) ⟨"Ops <ops@example.com>", [], "Report"⟩
        "\n--=_0123456789abcdef0123456789abcdef--\n"
        [⟨"a.csv", "text/csv", []⟩, ⟨"\u00e4.csv", "text/csv", [0x2D, 0x2D]⟩] = .ok m ∧
      ∃ fields first files, (Utf8.decode? m.bytes).bind read? = some (fields, first :: files) ∧
        (first :: files).length = 1 + 2 ∧
        CarriesText "\n--=_0123456789abcdef0123456789abcdef--\n".toList first ∧
        List.Forall₂ Carries [⟨"a.csv", "text/csv", []⟩, ⟨"\u00e4.csv", "text/csv", [0x2D, 0x2D]⟩] files := by
  have htoken : ∀ b ∈ ["=_0123456789abcdef0123456789abcdef".toList], IsToken b := by
    intro b hb
    obtain rfl := List.mem_singleton.1 hb
    refine ⟨"0123456789abcdef".toList ++ "0123456789abcdef".toList, by decide, by decide, ?_⟩
    intro c hc
    exact (List.mem_append.1 hc).elim id id
  have hkind : ∀ a ∈ [Attachment.mk "a.csv" "text/csv" [], ⟨"\u00e4.csv", "text/csv", [0x2D, 0x2D]⟩],
      hasBreak a.mimeType.toList = false := by decide
  refine ⟨htoken, hkind, exists_ok_and ?_ fun m hm => exists_read?_of_build htoken hkind hm⟩
  decide +kernel

end SheetPost.Mail.Message
