/-
How long the lines of a message are. Mail allows 998 bytes in a line. The body and the attachments are wrapped far below
that, and encoded words are folded, but a header value of ASCII, an address, the kind of an attachment and the escaped
bytes of a file name stand in one line each, however long they are.

Main statement: the lines of a message that was built keep to the limit just if those of its fields do, each of which
is known from the lengths of what was to be written (`lines_of_build_iff`).
-/
import SheetPost.Proofs.Calendar.Rfc2822
import SheetPost.Proofs.Mail.Base64Lines
import SheetPost.Proofs.Mail.LineLengths

namespace SheetPost.Mail

open SheetPost.Text

/-! ## Lines of bytes -/

/-- the lines of some bytes, ended by CR LF -/
def splitBytes : List UInt8 → List (List UInt8)
  | [] => [[]]
  | 0x0D :: 0x0A :: r => [] :: splitBytes r
  | b :: r =>
    match splitBytes r with
    | [] => [[b]]
    | line :: lines => (b :: line) :: lines

theorem splitBytes_append {p s l : List UInt8} {ls : List (List UInt8)} (hp : (0x0D : UInt8) ∉ p)
    (hs : splitBytes s = l :: ls) : splitBytes (p ++ s) = (p ++ l) :: ls := by
  induction p with
  | nil => exact hs
  | cons b p ih =>
    rw [List.mem_cons, not_or] at hp
    rw [List.cons_append, splitBytes, ih hp.2, List.cons_append]
    intro t h _
    exact hp.1 h.symm

/-- the lines of the bytes of a text are the bytes of its lines -/
theorem splitBytes_encode (s : List Char) : splitBytes (Utf8.encode s) = (splitLines s).map Utf8.encode := by
  fun_induction splitLines s with
  | case1 => rfl
  | case2 r ih =>
    have hbytes : Utf8.encode ('\r' :: '\n' :: r) = 0x0D :: 0x0A :: Utf8.encode r := rfl
    rw [hbytes, splitBytes, ih]
    rfl
  | case3 c r _ hs _ => exact absurd hs (splitLines_ne_nil r)
  | case4 c r hc line lines hs ih =>
    rw [hs, List.map_cons] at ih
    by_cases h : c = '\r'
    · subst h
      have hbytes : Utf8.encode ('\r' :: r) = 0x0D :: Utf8.encode r := rfl
      rw [hbytes, splitBytes, ih]
      · rfl
      · intro t _ ht
        obtain ⟨u, hu⟩ := Utf8.exists_of_encode_eq_cons (d := '\n') (by decide) ht
        exact hc u rfl hu
    · rw [Utf8.encode_cons, splitBytes_append (Utf8.not_mem_encodeChar (d := '\r') (by decide) h) ih]
      rfl

/-! ## The limit -/

/-- the most bytes that mail allows in a line -/
def lineMax : Nat := 998

/-- no line of the text is too long -/
def InLimit (s : List Char) : Prop := ∀ n ∈ lineLengths s, n ≤ lineMax

instance (s : List Char) : Decidable (InLimit s) := inferInstanceAs (Decidable (∀ n ∈ lineLengths s, n ≤ lineMax))

/-- no line of a field is too long whose value has lines of these lengths -/
def Fits (field : String) (value : List Nat) : Prop :=
  ∀ n ∈ behind (Utf8.length field.toList + 2) value, n ≤ lineMax

instance (field : String) (value : List Nat) : Decidable (Fits field value) :=
  inferInstanceAs (Decidable (∀ n ∈ behind _ value, n ≤ lineMax))

theorem forall_splitBytes_iff (s : List Char) : (∀ l ∈ splitBytes (Utf8.encode s), l.length ≤ lineMax) ↔ InLimit s := by
  rw [splitBytes_encode, InLimit, lineLengths, List.forall_mem_map, List.forall_mem_map]
  simp only [Utf8.length_encode]

theorem inLimit_append_crlf (a s : List Char) : InLimit (a ++ (crlf ++ s)) ↔ InLimit a ∧ InLimit s := by
  rw [InLimit, lineLengths, splitLines_append_crlf, List.map_append, List.forall_mem_append]
  rfl

theorem inLimit_joinLines (ts : List (List Char)) : InLimit (joinLines ts) ↔ ∀ t ∈ ts, InLimit t := by
  induction ts with
  | nil => decide
  | cons t ts ih =>
    rw [List.forall_mem_cons, ← ih]
    cases ts with
    | nil => simp [joinLines, join, InLimit, lineLengths, splitLines, Utf8.length]
    | cons u ts => rw [joinLines, join, List.append_assoc, inLimit_append_crlf, joinLines]

theorem inLimit_of_plain {s : List Char} (hbreak : hasBreak s = false) (hascii : isAscii s = true)
    (hlength : s.length ≤ lineMax) : InLimit s := by
  rw [InLimit, lineLengths_of_plain hbreak hascii, List.forall_mem_singleton]
  exact hlength

/-! ## Encoded texts -/

theorem QuotedPrintable.inLimit_encode (text : List Char) : InLimit (encode text) := by
  rw [InLimit, lineLengths, List.forall_mem_map]
  intro l hl
  have hline := isLine_of_mem hl
  rw [Utf8.length_of_ascii (isAscii_iff.1 hline.isAscii)]
  exact Nat.le_trans hline.length_le (by decide)

theorem Base64.inLimit_wrapped (bytes : List UInt8) : InLimit (wrapped bytes) := by
  rw [InLimit, lineLengths, splitLines_wrapped, List.forall_mem_map, List.forall_mem_append, List.forall_mem_singleton]
  refine ⟨fun l hl => ?_, by decide⟩
  rw [Utf8.length_of_ascii fun c hc => (isDigit_of_mem_pieces hl c hc).toNat_lt]
  exact Nat.le_trans (length_le_of_mem_pieces l hl) (by decide)

/-! ## Fields and parts -/

namespace Message

theorem inLimit_field_iff (name : String) (value : List Char) (hname : '\r' ∉ name.toList) :
    InLimit (fieldText (name.toList, value)) ↔ Fits name (lineLengths value) := by
  have htext : fieldText (name.toList, value) = (name.toList ++ [':', ' ']) ++ value := by simp [fieldText]
  have hcolon : Utf8.length [':', ' '] = 2 := by decide
  rw [InLimit, htext, lineLengths_append (by simpa using hname), Utf8.length_append, hcolon]
  rfl

/-- a value of ASCII stands in the line of its name -/
theorem inLimit_field {name : String} {value : List Char} (hname : '\r' ∉ name.toList) (hbreak : hasBreak value = false)
    (hascii : isAscii value = true) (hlength : Utf8.length name.toList + 2 + value.length ≤ lineMax) :
    InLimit (fieldText (name.toList, value)) := by
  rw [inLimit_field_iff name value hname, lineLengths_of_plain hbreak hascii, Fits, behind, List.forall_mem_singleton]
  exact hlength

theorem inLimit_block_iff (fs : List (List Char × List Char)) (rest : List Char) :
    InLimit (block fs rest) ↔ (∀ f ∈ fs, InLimit (fieldText f)) ∧ InLimit rest := by
  induction fs with
  | nil =>
    have hempty : InLimit [] := by decide
    have hblock : block [] rest = [] ++ (crlf ++ rest) := rfl
    rw [hblock, inLimit_append_crlf, and_iff_right hempty, and_iff_right (List.forall_mem_nil _)]
  | cons f fs ih =>
    have hblock : block (f :: fs) rest = fieldText f ++ (crlf ++ block fs rest) := by
      simp [block, fieldLine, fieldText]
    rw [hblock, inLimit_append_crlf, ih, List.forall_mem_cons, and_assoc]

theorem IsToken.length_eq {b : List Char} (h : IsToken b) : b.length = 34 := by
  obtain ⟨digits, rfl, hdigits, -⟩ := h
  rw [List.length_cons, List.length_cons, hdigits]

/-- delimiters are short -/
theorem inLimit_multipart_iff {boundary : List Char} (hb : IsToken boundary) (parts : List Part) :
    InLimit (multipart boundary parts) ↔ ∀ p ∈ parts, (∀ f ∈ p.fields, InLimit (fieldText f)) ∧ InLimit p.body := by
  have hplain {s : List Char} (hbreak : hasBreak s = false) (hascii : isAscii s = true) (hs : s.length ≤ 900) :
      InLimit ('-' :: '-' :: (boundary ++ s)) := by
    refine inLimit_of_plain (hasBreak_append (s := ['-', '-']) (by decide)
      (hasBreak_append (hasBreak_of_isToken hb) hbreak)) ?_ ?_
    · rw [isAscii_cons, isAscii_cons, isAscii_append, isAscii_of_isToken hb, hascii]
      rfl
    · rw [List.length_cons, List.length_cons, List.length_append, hb.length_eq, lineMax]
      omega
  have hpart (p : Part) : InLimit (partText boundary p) ↔ (∀ f ∈ p.fields, InLimit (fieldText f)) ∧ InLimit p.body := by
    have hline := hplain (s := []) (by decide) (by decide) (by decide)
    rw [List.append_nil] at hline
    rw [partText, ← List.cons_append, ← List.cons_append, inLimit_append_crlf, inLimit_block_iff, and_iff_right hline]
  have hclosing : InLimit ('-' :: '-' :: (boundary ++ ('-' :: '-' :: crlf))) := by
    have hline := hplain (s := ['-', '-']) (by decide) (by decide) (by decide)
    have := (inLimit_append_crlf _ []).2 ⟨hline, by decide⟩
    simpa using this
  rw [multipart, inLimit_append_crlf, and_iff_left hclosing, ← joinLines, inLimit_joinLines, List.forall_mem_map]
  simp only [hpart]

theorem inLimit_bodyPart (text : String) :
    (∀ f ∈ (bodyPart text).fields, InLimit (fieldText f)) ∧ InLimit (bodyPart text).body := by
  have hkind : InLimit (fieldText ("Content-Type".toList, "text/plain; charset=utf-8".toList)) := by decide
  have hencoding : InLimit (fieldText ("Content-Transfer-Encoding".toList, "quoted-printable".toList)) := by decide
  exact ⟨List.forall_mem_cons.2 ⟨hkind, List.forall_mem_singleton.2 hencoding⟩,
    QuotedPrintable.inLimit_encode text.toList⟩

/-- the payload of an attachment does not matter -/
theorem inLimit_attachmentPart_iff (a : Attachment) :
    ((∀ f ∈ (attachmentPart a).fields, InLimit (fieldText f)) ∧ InLimit (attachmentPart a).body) ↔
      Fits "Content-Type" (lineLengths a.mimeType.toList) ∧
        Fits "Content-Disposition" (Disposition.lengths a.fileName.toList) := by
  have hencoding : InLimit (fieldText ("Content-Transfer-Encoding".toList, "base64".toList)) := by decide
  have hbody : InLimit (attachmentPart a).body := Base64.inLimit_wrapped a.payload
  have hkind := inLimit_field_iff "Content-Type" a.mimeType.toList (by decide)
  have hname := inLimit_field_iff "Content-Disposition" (Disposition.encode a.fileName.toList) (by decide)
  rw [Disposition.lineLengths_encode] at hname
  have hfields : (attachmentPart a).fields = [("Content-Type".toList, a.mimeType.toList),
      ("Content-Transfer-Encoding".toList, "base64".toList),
      ("Content-Disposition".toList, Disposition.encode a.fileName.toList)] := rfl
  rw [and_iff_left hbody, hfields, List.forall_mem_cons, List.forall_mem_cons, List.forall_mem_singleton, hkind, hname,
    and_iff_right hencoding]

theorem inLimit_contentType {b : List Char} (hb : IsToken b) :
    InLimit (fieldText ("Content-Type".toList, "multipart/mixed; boundary=\"".toList ++ (b ++ ['"']))) := by
  have hlead : isAscii "multipart/mixed; boundary=\"".toList = true ∧
      "multipart/mixed; boundary=\"".toList.length = 27 ∧ Utf8.length "Content-Type".toList = 12 := by decide
  refine inLimit_field (by decide) hb.hasBreak_contentType ?_ ?_
  · rw [isAscii_append, isAscii_append, hlead.1, isAscii_of_isToken hb]
    rfl
  · rw [List.length_append, List.length_append, hlead.2.1, hlead.2.2, hb.length_eq]
    decide

theorem inLimit_date {now : Calendar.Moment} (hnow : Calendar.Rfc2822.IsWritable now) :
    InLimit (fieldText ("Date".toList, Calendar.Rfc2822.write now)) := by
  have hname : Utf8.length "Date".toList = 4 := by decide
  have hlength := Calendar.Rfc2822.length_write_le hnow
  refine inLimit_field (by decide) (Calendar.Rfc2822.hasBreak_write now) (isAscii_write now) ?_
  rw [hname, lineMax]
  omega

theorem inLimit_topFields_iff {subject date boundary : List Char} (hsubject : hasBreak subject = false)
    (hdate : InLimit (fieldText ("Date".toList, date))) (hb : IsToken boundary) (sender recipients : List Char) :
    (∀ f ∈ topFields sender recipients subject date boundary, InLimit (fieldText f)) ↔
      Fits "From" (lineLengths sender) ∧ Fits "To" (lineLengths recipients) ∧ Fits "Subject" (valueLengths subject) := by
  have hversion : InLimit (fieldText ("MIME-Version".toList, "1.0".toList)) := by decide
  have hkind := inLimit_contentType hb
  have hfrom := inLimit_field_iff "From" sender (by decide)
  have hto := inLimit_field_iff "To" recipients (by decide)
  have habout := inLimit_field_iff "Subject" (EncodedWord.encode subject) (by decide)
  rw [lineLengths_encode hsubject] at habout
  rw [topFields, List.forall_mem_cons, List.forall_mem_cons, List.forall_mem_cons, List.forall_mem_cons,
    List.forall_mem_cons, List.forall_mem_singleton, hfrom, hto, habout, and_iff_right hdate, and_iff_right hversion,
    and_iff_left hkind]

/-- a subject in encoded words is folded in time -/
theorem fits_subject_iff (s : List Char) :
    Fits "Subject" (valueLengths s) ↔ (isAscii s = true → 9 + s.length ≤ lineMax) := by
  have hname : Utf8.length "Subject".toList + 2 = 9 := by decide
  rw [Fits, hname]
  cases hascii : isAscii s with
  | true =>
    rw [valueLengths, hascii, if_pos rfl, behind, List.forall_mem_singleton]
    exact ⟨fun hfits _ => hfits, fun hfits => hfits rfl⟩
  | false =>
    refine iff_of_true (fun n hn => ?_) (fun h => absurd h Bool.false_ne_true)
    exact Nat.le_trans (le_of_mem_valueLengths hascii n hn) (by decide)

theorem fits_recipients_iff {recipients : List String} {v : List Char}
    (hb : ∀ r ∈ recipients, hasBreak r.toList = false) (h : renderRecipients recipients = .ok v) :
    ∃ ms, List.Forall₂ (fun value m => Mailbox.parse value.toList = .ok m) recipients ms ∧
      (Fits "To" (lineLengths v) ↔ Fits "To" (listLengths ms)) := by
  obtain ⟨ms, hms, rfl⟩ := exists_mailboxes_of_renderRecipients h
  refine ⟨ms, hms, ?_⟩
  split
  · next hnone =>
    subst hnone
    cases hms
    decide
  · rw [lineLengths_renders hb hms]

/-- **When the lines of a message keep to the limit**: just if those of five kinds of fields do. In `From` and `To` they
are those of the mailboxes, each in one line but for the folds of a name beyond ASCII. A subject is too long only if it
is ASCII, as any other is folded. The kind of an attachment stands as it is, and in the field of its file name the
quoted name, or the last word of it with the escaped bytes behind, is in one line. The text, the payloads, the date and
the boundary never matter. -/
theorem lines_of_build_iff {drawn : List (List Char)} {now : Calendar.Moment} {h : Headers} {text : String}
    {attachments : List Attachment} {m : Message} (hdrawn : ∀ b ∈ drawn, IsToken b)
    (hnow : Calendar.Rfc2822.IsWritable now)
    (hm : build drawn (Calendar.Rfc2822.write now) h text attachments = .ok m) :
    ∃ sender recipients, Mailbox.parse h.sender.toList = .ok sender ∧
      List.Forall₂ (fun value m => Mailbox.parse value.toList = .ok m) h.recipients recipients ∧
      ((∀ l ∈ splitBytes m.bytes, l.length ≤ lineMax) ↔
        Fits "From" sender.lengths ∧ Fits "To" (listLengths recipients) ∧
        (isAscii h.subject.toList = true → 9 + h.subject.toList.length ≤ lineMax) ∧
        ∀ a ∈ attachments, Fits "Content-Type" (lineLengths a.mimeType.toList) ∧
          Fits "Content-Disposition" (Disposition.lengths a.fileName.toList)) := by
  obtain ⟨sender, recipients, hs, hr, htoken, -, -, htext⟩ := exists_topFields_of_build hdrawn hm
  have hunbroken := unbroken_of_build hm
  obtain ⟨mailbox, hmailbox, rfl⟩ := exists_of_renderMailbox hs
  obtain ⟨mailboxes, hmailboxes, hfits⟩ := fits_recipients_iff hunbroken.recipients hr
  obtain ⟨hname, haddress⟩ := hasBreak_of_parse hunbroken.sender hmailbox
  refine ⟨mailbox, mailboxes, hmailbox, hmailboxes, ?_⟩
  rw [bytes, forall_splitBytes_iff, htext, inLimit_block_iff, inLimit_multipart_iff htoken,
    inLimit_topFields_iff hunbroken.subject (inLimit_date hnow) htoken, Mailbox.lineLengths_render hname haddress, hfits,
    fits_subject_iff, List.forall_mem_cons, and_iff_right (inLimit_bodyPart text), List.forall_mem_map]
  simp only [inLimit_attachmentPart_iff, and_assoc]

/-- names beyond ASCII, which are folded -/
theorem lines_of_build_full :
    (∀ b ∈ ["=_0123456789abcdef0123456789abcdef".toList], IsToken b) ∧
    Calendar.Rfc2822.IsWritable ⟨⟨2026, 10, 18⟩, ⟨9, 0, 0⟩, 0, 0⟩ ∧
    ∃ m, build ["=_0123456789abcdef0123456789abcdef".toList]
        (Calendar.Rfc2822.write ⟨⟨2026, 10, 18⟩, ⟨9, 0, 0⟩, 0, 0⟩)
        ⟨"T\u00e4gliche Berichte der Abteilung f\u00fcr Zahlen <ops@example.com>", ["\u00c4, B <a@b.co>"],
          "Report"⟩ "" [⟨"\u00e4.csv", "text/csv", []⟩] = .ok m ∧
      ∀ l ∈ splitBytes m.bytes, l.length ≤ lineMax := by
  have htoken : ∀ b ∈ ["=_0123456789abcdef0123456789abcdef".toList], IsToken b := by decide
  have hnow : Calendar.Rfc2822.IsWritable ⟨⟨2026, 10, 18⟩, ⟨9, 0, 0⟩, 0, 0⟩ :=
    ⟨⟨by decide, by decide, by decide, by decide⟩, by decide, by decide⟩
  have hsender : Mailbox.parse "T\u00e4gliche Berichte der Abteilung f\u00fcr Zahlen <ops@example.com>".toList =
      .ok ⟨"T\u00e4gliche Berichte der Abteilung f\u00fcr Zahlen".toList, ⟨"ops".toList, "example.com".toList⟩⟩ := by
    decide +kernel
  have hrecipient : Mailbox.parse "\u00c4, B <a@b.co>".toList =
      .ok ⟨"\u00c4, B".toList, ⟨"a".toList, "b.co".toList⟩⟩ := by
    decide +kernel
  refine ⟨htoken, hnow, exists_ok_and (by decide +kernel) fun m hm => ?_⟩
  obtain ⟨sender, recipients, hs, hr, hlines⟩ := lines_of_build_iff htoken hnow hm
  rw [hsender] at hs
  cases hs
  cases hr with
  | cons hfirst hnone =>
    cases hnone
    rw [hrecipient] at hfirst
    cases hfirst
    exact hlines.2 (by decide +kernel)

/-- the mailboxes of many recipients are in one line -/
theorem long_recipients :
    ((build ["=_0123456789abcdef0123456789abcdef".toList] (Calendar.Rfc2822.write ⟨⟨2026, 10, 18⟩, ⟨9, 0, 0⟩, 0, 0⟩)
      ⟨"a@b.co", List.replicate 125 "c@d.co", "s"⟩ "" []).toOption.map
        fun m => (splitBytes m.bytes).filterMap fun l => if lineMax < l.length then some l.length else none) =
      some [1002] := by
  decide +kernel

end Message

end SheetPost.Mail
