/-
Messages that any server carries on unchanged: ASCII in lines that end in CR LF, with neither sign anywhere else. A text
of this kind (`SevenBit`) stays one when another is put behind it. Header values have their line breaks from folds only,
and what is encoded is written in printable characters, so the user's control characters and letters of any script come
into a message as ASCII, with their line breaks as mail has them, escaped or shown as spaces.

Main statement: the bytes of a message that was built (`sevenBit_of_build`).
-/
import SheetPost.Proofs.Mail.Disposition
import SheetPost.Proofs.Mail.RoundTrip
import SheetPost.Proofs.Mail.WrittenLines

namespace SheetPost.Mail

open SheetPost.Text

/-! ## Texts -/

/-- ASCII in which CR and LF stand only together, in this order -/
inductive SevenBit : List Char → Prop where
  | nil : SevenBit []
  | char {c : Char} {s : List Char} : c.toNat < 0x80 → c ≠ '\r' → c ≠ '\n' → SevenBit s → SevenBit (c :: s)
  | crlf {s : List Char} : SevenBit s → SevenBit ('\r' :: '\n' :: s)

theorem sevenBit_crlf : SevenBit crlf := .crlf .nil

theorem SevenBit.append {s t : List Char} (hs : SevenBit s) (ht : SevenBit t) : SevenBit (s ++ t) := by
  induction hs with
  | nil => exact ht
  | char hc hr hn _ ih => exact .char hc hr hn ih
  | crlf _ ih => exact .crlf ih

theorem sevenBit_flatMap {α : Type} {f : α → List Char} {l : List α} (h : ∀ a ∈ l, SevenBit (f a)) :
    SevenBit (l.flatMap f) := by
  induction l with
  | nil => exact .nil
  | cons a l ih =>
    rw [List.forall_mem_cons] at h
    rw [List.flatMap_cons]
    exact h.1.append (ih h.2)

theorem sevenBit_join {sep : List Char} {ts : List (List Char)} (hsep : SevenBit sep) (h : ∀ t ∈ ts, SevenBit t) :
    SevenBit (join sep ts) := by
  induction ts with
  | nil => exact .nil
  | cons t ts ih =>
    rw [List.forall_mem_cons] at h
    cases ts with
    | nil => exact h.1
    | cons u ts => exact (h.1.append hsep).append (ih h.2)

/-- the line breaks of folds are the only ones in a folded text -/
theorem Folded.sevenBit {s : List Char} (h : Folded s) (hascii : isAscii s = true) : SevenBit s := by
  rw [isAscii_iff] at hascii
  induction h with
  | nil => exact .nil
  | char hr hn _ ih =>
    rw [List.forall_mem_cons] at hascii
    exact .char hascii.1 hr hn (ih hascii.2)
  | fold _ ih =>
    rw [List.forall_mem_cons, List.forall_mem_cons, List.forall_mem_cons] at hascii
    exact .crlf (.char hascii.2.2.1 (by decide) (by decide) (ih hascii.2.2.2))

theorem sevenBit_of_hasBreak {s : List Char} (hbreak : hasBreak s = false) (hascii : isAscii s = true) : SevenBit s :=
  (folded_of_hasBreak hbreak).sevenBit hascii

theorem sevenBit_of_plain {s : List Char} (h : (!hasBreak s && isAscii s) = true) : SevenBit s := by
  rw [Bool.and_eq_true, Bool.not_eq_true'] at h
  exact sevenBit_of_hasBreak h.1 h.2

/-- bytes below 128 in which every CR stands before an LF, and every LF behind a CR -/
structure SevenBitBytes (bytes : List UInt8) : Prop where
  low : ∀ b ∈ bytes, b < 0x80
  cr : ∀ before after, bytes = before ++ 0x0D :: after → ∃ r, after = 0x0A :: r
  lf : ∀ before after, bytes = before ++ 0x0A :: after → ∃ r, before = r ++ [0x0D]

theorem SevenBitBytes.cons {b : UInt8} {bytes : List UInt8} (h : SevenBitBytes bytes) (hb : b < 0x80) (hr : b ≠ 0x0D)
    (hn : b ≠ 0x0A) : SevenBitBytes (b :: bytes) where
  low := List.forall_mem_cons.2 ⟨hb, h.low⟩
  cr before after he := by
    cases before with
    | nil => exact absurd (List.cons.inj he).1 hr
    | cons x before => exact h.cr before after (List.cons.inj he).2
  lf before after he := by
    cases before with
    | nil => exact absurd (List.cons.inj he).1 hn
    | cons x before =>
      obtain ⟨r, rfl⟩ := h.lf before after (List.cons.inj he).2
      exact ⟨x :: r, rfl⟩

theorem SevenBitBytes.crlf {bytes : List UInt8} (h : SevenBitBytes bytes) : SevenBitBytes (0x0D :: 0x0A :: bytes) where
  low := List.forall_mem_cons.2 ⟨by decide, List.forall_mem_cons.2 ⟨by decide, h.low⟩⟩
  cr before after he := by
    match before with
    | [] => exact ⟨bytes, (List.cons.inj he).2.symm⟩
    | [x] => exact absurd (List.cons.inj (List.cons.inj he).2).1 (by decide)
    | x :: y :: before => exact h.cr before after (List.cons.inj (List.cons.inj he).2).2
  lf before after he := by
    match before with
    | [] => exact absurd (List.cons.inj he).1 (by decide)
    | [x] => exact ⟨[], by rw [← (List.cons.inj he).1]; rfl⟩
    | x :: y :: before =>
      obtain ⟨r, rfl⟩ := h.lf before after (List.cons.inj (List.cons.inj he).2).2
      exact ⟨x :: y :: r, rfl⟩

theorem SevenBit.bytes {s : List Char} (h : SevenBit s) : SevenBitBytes (Utf8.encode s) := by
  induction h with
  | nil => exact ⟨by simp [Utf8.encode], by simp [Utf8.encode], by simp [Utf8.encode]⟩
  | @char c s hc hr hn _ ih =>
    have hbyte : (UInt8.ofNat c.toNat).toNat = c.toNat := by
      rw [UInt8.toNat_ofNat', Nat.mod_eq_of_lt (by omega)]
    have hne {d : Char} (hd : c ≠ d) (hlt : d.toNat < 0x80) : UInt8.ofNat c.toNat ≠ UInt8.ofNat d.toNat := by
      have hmem := Utf8.not_mem_encodeChar hlt hd
      rw [Utf8.encodeChar_of_lt hc, List.mem_singleton] at hmem
      exact Ne.symm hmem
    rw [Utf8.encode_cons, Utf8.encodeChar_of_lt hc, List.singleton_append]
    exact ih.cons (UInt8.lt_iff_toNat_lt.2 (by rw [hbyte]; exact hc)) (hne hr (by decide)) (hne hn (by decide))
  | crlf _ ih => exact ih.crlf

/-! ## Encoded texts -/

theorem QuotedPrintable.IsLine.sevenBit {final : Bool} {l : List Char} (h : IsLine final l) : SevenBit l :=
  sevenBit_of_hasBreak (hasBreak_of_forall h.plain (by simp [IsPlain]) (by simp [IsPlain])) h.isAscii

theorem QuotedPrintable.sevenBit_encode (text : List Char) : SevenBit (encode text) := by
  rw [← joinLines_splitLines (encode text), joinLines]
  exact sevenBit_join sevenBit_crlf fun l hl => (isLine_of_mem hl).sevenBit

theorem Base64.sevenBit_wrapped (bytes : List UInt8) : SevenBit (wrapped bytes) := by
  refine sevenBit_flatMap fun l hl => SevenBit.append ?_ sevenBit_crlf
  have hdigit := isDigit_of_mem_pieces hl
  exact sevenBit_of_hasBreak (hasBreak_of_isDigit hdigit)
    (isAscii_iff.2 fun c hc => (hdigit c hc).toNat_lt)

/-! ## Header values -/

theorem isAscii_percent {plain : UInt8 → Bool} (hp : ∀ b, plain b = true → b.toNat < 0x80) (bytes : List UInt8) :
    isAscii (Percent.encode plain bytes) = true := by
  have hdigit : ∀ n : Fin 16, (hexDigit n).toNat < 0x80 := by decide
  induction bytes with
  | nil => rfl
  | cons b bytes ih =>
    have hb := b.toNat_lt
    rw [Percent.encode_cons, isAscii_append, ih, Bool.and_true]
    split
    · next h =>
      have hlt := hp b h
      simpa [isAscii, Percent.toNat_ofNat_of_lt hlt] using hlt
    · have hhigh := hdigit ⟨b.toNat / 16, by omega⟩
      have hlow := hdigit ⟨b.toNat % 16, by omega⟩
      rw [Percent.escape, hexByte, isAscii_cons, isAscii_cons, isAscii_cons, decide_eq_true hhigh, decide_eq_true hlow]
      rfl

theorem isAscii_extended (name : List Char) : isAscii (Disposition.extended name) = true := by
  have hbytes := isAscii_percent (fun b hb => (Disposition.of_isAttrByte hb).2.1) (Utf8.encode name)
  unfold Disposition.extended
  rw [isAscii_append, hbytes]
  rfl

theorem isAscii_disposition (name : List Char) : isAscii (Disposition.encode name) = true := by
  unfold Disposition.encode
  split
  · next h =>
    have hbody : isAscii (QuotedString.body (Disposition.flatten name)) = true := by
      rw [isAscii_body, Disposition.isAscii_flatten, h]
    rw [isAscii_append, isAscii_append, hbody]
    rfl
  · rw [isAscii_append, isAscii_append, isAscii_append, EncodedWord.isAscii_encode, isAscii_extended]
    rfl

theorem Mailbox.isAscii_render {m : Mailbox} (h : isAscii m.address.text = true) : isAscii m.render = true := by
  have hangle : isAscii (' ' :: '<' :: (m.address.text ++ ['>'])) = true := by
    rw [isAscii_cons, isAscii_cons, isAscii_append, h]
    rfl
  simp only [render]
  split
  · exact h
  · split
    · next hname =>
      have hquoted : isAscii (QuotedString.encode m.name) = true := by
        rw [QuotedString.encode, isAscii_cons, isAscii_append, isAscii_body, hname]
        rfl
      rw [isAscii_append, hquoted, hangle]
      rfl
    · rw [isAscii_append, EncodedWord.isAscii_encode, hangle]
      rfl

theorem isAscii_write (now : Calendar.Moment) : isAscii (Calendar.Rfc2822.write now) = true := by
  rw [isAscii_iff]
  intro c hc
  exact Calendar.Rfc2822.lt_of_isDateChar (List.all_eq_true.1 (Calendar.Rfc2822.all_write now) c hc)

namespace Message

/-- the addresses in `From` and `To` are ASCII -/
def AsciiAddresses (h : Headers) : Prop :=
  ∀ value ∈ h.sender :: h.recipients, ∀ m, Mailbox.parse value.toList = .ok m → isAscii m.address.text = true

theorem isAscii_renderMailbox {field : Field} {value : String} {v : List Char}
    (hascii : ∀ m, Mailbox.parse value.toList = .ok m → isAscii m.address.text = true)
    (h : renderMailbox field value = .ok v) : isAscii v = true := by
  obtain ⟨m, hm, rfl⟩ := exists_of_renderMailbox h
  exact Mailbox.isAscii_render (hascii m hm)

theorem isAscii_renderRecipients {recipients : List String} {v : List Char}
    (hascii : ∀ r ∈ recipients, ∀ m, Mailbox.parse r.toList = .ok m → isAscii m.address.text = true)
    (h : renderRecipients recipients = .ok v) : isAscii v = true := by
  obtain ⟨ms, hms, rfl⟩ := exists_mailboxes_of_renderRecipients h
  split
  · decide
  · have hcomma : isAscii [',', ' '] = true := by decide
    have hrenders : ∀ t ∈ ms.map Mailbox.render, isAscii t = true :=
      forall_mem_renders (fun r hr m hm => Mailbox.isAscii_render (hascii r hr m hm)) hms
    rw [isAscii_iff]
    intro c hc
    rcases mem_join hc with hc | ⟨t, ht, hc⟩
    · exact isAscii_iff.1 hcomma c hc
    · exact isAscii_iff.1 (hrenders t ht) c hc

/-! ## Parts and messages -/

/-- name and value of a field can stand in a message -/
def SevenBitField (f : List Char × List Char) : Prop := SevenBit f.1 ∧ SevenBit f.2

theorem sevenBitField {name value : List Char} (hname : (!hasBreak name && isAscii name) = true)
    (hvalue : SevenBit value) : SevenBitField (name, value) :=
  ⟨sevenBit_of_plain hname, hvalue⟩

theorem sevenBit_block {fields : List (List Char × List Char)} {rest : List Char}
    (hf : ∀ f ∈ fields, SevenBitField f) (hrest : SevenBit rest) : SevenBit (block fields rest) := by
  refine (sevenBit_flatMap fun f hmem => ?_).append (sevenBit_crlf.append hrest)
  obtain ⟨hname, hvalue⟩ := hf f hmem
  exact hname.append (.char (by decide) (by decide) (by decide)
    (.char (by decide) (by decide) (by decide) (hvalue.append sevenBit_crlf)))

theorem sevenBit_multipart {boundary : List Char} {parts : List Part} (hb : SevenBit boundary)
    (hp : ∀ p ∈ parts, (∀ f ∈ p.fields, SevenBitField f) ∧ SevenBit p.body) :
    SevenBit (multipart boundary parts) := by
  have hhyphens : SevenBit ['-', '-'] := sevenBit_of_hasBreak (by decide) (by decide)
  refine SevenBit.append (sevenBit_join sevenBit_crlf fun t ht => ?_)
    (sevenBit_crlf.append (hhyphens.append (hb.append (hhyphens.append sevenBit_crlf))))
  obtain ⟨p, hmem, rfl⟩ := List.mem_map.1 ht
  obtain ⟨hfields, hbody⟩ := hp p hmem
  exact hhyphens.append (hb.append (sevenBit_crlf.append (sevenBit_block hfields hbody)))

theorem sevenBit_bodyPart (text : String) :
    (∀ f ∈ (bodyPart text).fields, SevenBitField f) ∧ SevenBit (bodyPart text).body := by
  refine ⟨?_, QuotedPrintable.sevenBit_encode text.toList⟩
  have hkind : SevenBitField ("Content-Type".toList, "text/plain; charset=utf-8".toList) :=
    sevenBitField (by decide) (sevenBit_of_plain (by decide))
  have hencoding : SevenBitField ("Content-Transfer-Encoding".toList, "quoted-printable".toList) :=
    sevenBitField (by decide) (sevenBit_of_plain (by decide))
  exact List.forall_mem_cons.2 ⟨hkind, List.forall_mem_singleton.2 hencoding⟩

theorem sevenBit_attachmentPart {a : Attachment} (hbreak : hasBreak a.mimeType.toList = false)
    (hascii : isAscii a.mimeType.toList = true) :
    (∀ f ∈ (attachmentPart a).fields, SevenBitField f) ∧ SevenBit (attachmentPart a).body := by
  refine ⟨?_, Base64.sevenBit_wrapped a.payload⟩
  have hkind : SevenBitField ("Content-Type".toList, a.mimeType.toList) :=
    sevenBitField (by decide) (sevenBit_of_hasBreak hbreak hascii)
  have hencoding : SevenBitField ("Content-Transfer-Encoding".toList, "base64".toList) :=
    sevenBitField (by decide) (sevenBit_of_plain (by decide))
  have hname : SevenBitField ("Content-Disposition".toList, Disposition.encode a.fileName.toList) :=
    sevenBitField (by decide) ((folded_disposition _).sevenBit (isAscii_disposition _))
  exact List.forall_mem_cons.2 ⟨hkind, List.forall_mem_cons.2 ⟨hencoding, List.forall_mem_singleton.2 hname⟩⟩

theorem isAscii_of_isToken {b : List Char} (h : IsToken b) : isAscii b = true := by
  obtain ⟨digits, rfl, -, hdigits⟩ := h
  have hlow : isAscii "0123456789abcdef".toList = true := by decide
  rw [isAscii_cons, isAscii_cons, isAscii_iff.2 fun c hc => isAscii_iff.1 hlow c (hdigits c hc)]
  rfl

theorem sevenBit_topFields {sender recipients subject date boundary : List Char} (hs : SevenBit sender)
    (hr : SevenBit recipients) (hj : hasBreak subject = false) (hd : SevenBit date) (hb : SevenBit boundary) :
    ∀ f ∈ topFields sender recipients subject date boundary, SevenBitField f := by
  have hsubject : SevenBit (EncodedWord.encode subject) := (folded_encode hj).sevenBit (EncodedWord.isAscii_encode subject)
  have hkind : SevenBit ("multipart/mixed; boundary=\"".toList ++ (boundary ++ ['"'])) :=
    (sevenBit_of_plain (by decide)).append (hb.append (sevenBit_of_plain (by decide)))
  intro f hf
  simp only [topFields, List.mem_cons, List.not_mem_nil, or_false] at hf
  rcases hf with rfl | rfl | rfl | rfl | rfl | rfl
  · exact sevenBitField (by decide) hs
  · exact sevenBitField (by decide) hr
  · exact sevenBitField (by decide) hsubject
  · exact sevenBitField (by decide) hd
  · exact sevenBitField (by decide) (sevenBit_of_plain (by decide))
  · exact sevenBitField (by decide) hkind

/-- **A message that was built is ASCII, and its only line breaks are those of mail.** Every byte is below 128, every CR
has an LF behind it and every LF a CR before it. The addresses must be ASCII, and the kinds of the attachments ASCII in
one line; names, subject, text, file names and payloads may hold anything. -/
theorem sevenBit_of_build {drawn : List (List Char)} {now : Calendar.Moment} {h : Headers} {text : String}
    {attachments : List Attachment} {m : Message} (hdrawn : ∀ b ∈ drawn, IsToken b) (haddresses : AsciiAddresses h)
    (hkinds : ∀ a ∈ attachments, isAscii a.mimeType.toList = true ∧ hasBreak a.mimeType.toList = false)
    (hm : build drawn (Calendar.Rfc2822.write now) h text attachments = .ok m) :
    (∀ b ∈ m.bytes, b < 0x80) ∧
    (∀ before after, m.bytes = before ++ 0x0D :: after → ∃ r, after = 0x0A :: r) ∧
    (∀ before after, m.bytes = before ++ 0x0A :: after → ∃ r, before = r ++ [0x0D]) := by
  obtain ⟨sender, recipients, hs, hr, htoken, -, -, htext⟩ := exists_topFields_of_build hdrawn hm
  have hunbroken := unbroken_of_build hm
  obtain ⟨hfrom, hall⟩ := List.forall_mem_cons.1 haddresses
  have hsender : SevenBit sender :=
    (folded_renderMailbox hunbroken.sender hs).sevenBit (isAscii_renderMailbox hfrom hs)
  have hrecipients : SevenBit recipients :=
    (folded_renderRecipients hunbroken.recipients hr).sevenBit (isAscii_renderRecipients hall hr)
  have hboundary : SevenBit m.boundary := sevenBit_of_hasBreak (hasBreak_of_isToken htoken) (isAscii_of_isToken htoken)
  have hdate : SevenBit (Calendar.Rfc2822.write now) :=
    sevenBit_of_hasBreak (Calendar.Rfc2822.hasBreak_write now) (isAscii_write now)
  have hparts : ∀ p ∈ bodyPart text :: attachments.map attachmentPart,
      (∀ f ∈ p.fields, SevenBitField f) ∧ SevenBit p.body :=
    List.forall_mem_cons.2 ⟨sevenBit_bodyPart text,
      List.forall_mem_map.2 fun a ha => sevenBit_attachmentPart (hkinds a ha).2 (hkinds a ha).1⟩
  have hmessage := sevenBit_block (sevenBit_topFields hsender hrecipients hunbroken.subject hdate hboundary)
    (sevenBit_multipart hboundary hparts)
  rw [← htext] at hmessage
  exact ⟨hmessage.bytes.low, hmessage.bytes.cr, hmessage.bytes.lf⟩

/-- letters of other scripts, stray signs of line breaks and control characters, wherever text of the user goes -/
theorem sevenBit_of_build_stray :
    (∀ b ∈ ["=_0123456789abcdef0123456789abcdef".toList], IsToken b) ∧
    AsciiAddresses ⟨"J\u00f6rg <jorg@example.com>", ["\x00 <a@b.co>"], "\u00c4\x7f"⟩ ∧
    (∀ a ∈ [Attachment.mk "\u00e4\r\n\r.csv" "text/csv" [0x0D]],
      isAscii a.mimeType.toList = true ∧ hasBreak a.mimeType.toList = false) ∧
    ∃ m, build ["=_0123456789abcdef0123456789abcdef".toList]
        (Calendar.Rfc2822.write ⟨⟨2026, 10, 18⟩, ⟨9, 0, 0⟩, 0, 0⟩)
        ⟨"J\u00f6rg <jorg@example.com>", ["\x00 <a@b.co>"], "\u00c4\x7f"⟩ "\r\r\n\n\u00e4\r"
        [⟨"\u00e4\r\n\r.csv", "text/csv", [0x0D]⟩] = .ok m ∧
      (∀ b ∈ m.bytes, b < 0x80) ∧
      (∀ before after, m.bytes = before ++ 0x0D :: after → ∃ r, after = 0x0A :: r) ∧
      (∀ before after, m.bytes = before ++ 0x0A :: after → ∃ r, before = r ++ [0x0D]) := by
  have htoken : ∀ b ∈ ["=_0123456789abcdef0123456789abcdef".toList], IsToken b := by decide
  have haddresses : AsciiAddresses ⟨"J\u00f6rg <jorg@example.com>", ["\x00 <a@b.co>"], "\u00c4\x7f"⟩ := by
    have hall : ∀ value ∈ ["J\u00f6rg <jorg@example.com>", "\x00 <a@b.co>"],
        ((Mailbox.parse value.toList).toOption.all fun m => isAscii m.address.text) = true := by decide +kernel
    intro value hvalue m hm
    have := hall value hvalue
    rw [hm] at this
    exact this
  have hkinds : ∀ a ∈ [Attachment.mk "\u00e4\r\n\r.csv" "text/csv" [0x0D]],
      isAscii a.mimeType.toList = true ∧ hasBreak a.mimeType.toList = false := by decide
  refine ⟨htoken, haddresses, hkinds, exists_ok_and ?_ fun m hm => sevenBit_of_build htoken haddresses hkinds hm⟩
  decide +kernel

end Message

end SheetPost.Mail
