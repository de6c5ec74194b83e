/-
The header blocks of the parts, where attachments hold any texts. The boundary stands in no value and in no body, so a
message falls into one section for the text and one for each attachment (`sections?`), whatever the attachments are
called and whatever kind they say they are of. Inside the section of an attachment the file name is quoted and folded,
but the kind is written as it is.

Main statement: the section of an attachment reads as its three fields and its payload, and nothing else, just if every
line of its kind but the first begins with a blank (`sections_of_build`). Any other line break in the kind ends a field
in the middle: what follows it stands in the header block as a field of its own, or in the body.
-/
import SheetPost.Proofs.Mail.RoundTrip

namespace SheetPost.Mail

open SheetPost.Text

namespace Message

/-! ## Sections -/

/-- the pieces in front of the last one, which begins with two hyphens -/
def closed? (pieces : List (List Char)) : Option (List (List Char)) :=
  (pieces.getLast?.bind (after? ['-', '-'])).map fun _ => pieces.dropLast

/-- what stands between the delimiters of a message, not read yet -/
def sections? (s : List Char) : Option (List (List Char)) :=
  (readBlock? s).bind fun (fields, rest) =>
    ((fields.lookup "Content-Type".toList).bind readBoundary?).bind fun boundary =>
      closed? (splitAtText (delimiter boundary) (crlf ++ rest)).tail

/-- header fields and body behind the line of the delimiter -/
def readSection? (s : List Char) : Option Part := (after? crlf s).bind readPart?

theorem closed?_cons (piece : List Char) {more : List (List Char)} (h : more ≠ []) :
    closed? (piece :: more) = (closed? more).map (piece :: ·) := by
  rw [closed?, closed?, List.getLast?_cons_of_ne_nil h, List.dropLast_cons_of_ne_nil h]
  cases more.getLast?.bind (after? ['-', '-']) <;> rfl

theorem readParts?_eq (pieces : List (List Char)) :
    readParts? pieces = (closed? pieces).bind fun sections => sections.mapM readSection? := by
  induction pieces with
  | nil => rfl
  | cons piece more ih =>
    cases more with
    | nil =>
      rw [readParts?, closed?, List.getLast?_singleton, Option.bind_some]
      cases after? ['-', '-'] piece <;> rfl
    | cons next more =>
      have hne : next :: more ≠ [] := by simp
      rw [readParts?.eq_3 _ _ hne, ih, closed?_cons piece hne]
      cases closed? (next :: more) with
      | none => cases (after? crlf piece).bind readPart? <;> rfl
      | some sections =>
        rw [Option.map_some, Option.bind_some, Option.bind_some, List.mapM_cons, readSection?]
        cases (after? crlf piece).bind readPart? with
        | none => rfl
        | some p => cases sections.mapM readSection? <;> rfl

/-- the parts of a message are its sections, each of them read -/
theorem read?_eq (s : List Char) :
    (read? s).map Prod.snd = (sections? s).bind fun sections => sections.mapM readSection? := by
  rw [read?, sections?]
  cases readBlock? s with
  | none => rfl
  | some r =>
    obtain ⟨fields, rest⟩ := r
    simp only [Option.bind_some]
    cases (fields.lookup "Content-Type".toList).bind readBoundary? with
    | none => rfl
    | some boundary =>
      simp only [Option.bind_some, delimiter]
      cases splitAtText (crlf ++ ('-' :: '-' :: boundary)) (crlf ++ rest) with
      | nil => rfl
      | cons preamble pieces =>
        simp only [List.tail_cons, ← readParts?_eq]
        cases readParts? pieces <;> rfl

/-! ## Sections of a message that was built -/

theorem closed?_pieces (ps : List Part) : closed? (ps.map piece ++ [closing]) = some (ps.map piece) := by
  have hlast : (ps.map piece ++ [closing]).getLast?.bind (after? ['-', '-']) = some crlf := by
    rw [List.getLast?_concat, Option.bind_some]
    rfl
  rw [closed?, hlast, Option.map_some, List.dropLast_concat]

/-- **A message falls into its parts**: the values of their fields may be any texts -/
theorem sections?_multipart {boundary : List Char} {fs : List (List Char × List Char)} {p : Part} {ps : List Part}
    (hne : fs ≠ []) (hf : ∀ f ∈ fs, IsField f) (hb : '\r' ∉ boundary)
    (hread : ((fs.map seen).lookup "Content-Type".toList).bind readBoundary? = some boundary)
    (hp : ∀ q ∈ p :: ps, IsHeaded q) (hc : clashes (p :: ps) boundary = false) :
    sections? (block fs (multipart boundary (p :: ps))) = some ((p :: ps).map piece) := by
  rw [sections?, readBlock?_block hne hf, Option.bind_some]
  simp only
  rw [hread, Option.bind_some, splitAtText_multipart hb hp hc, List.tail_cons, closed?_pieces]

theorem readSection?_piece (p : Part) : readSection? (piece p) = readPart? (block p.fields p.body) := by
  rw [readSection?, piece, after?_append, Option.bind_some]

theorem readSection?_of_isPart {p : Part} (hp : IsPart p) : readSection? (piece p) = some (seenPart p) := by
  rw [readSection?_piece, readPart?, readBlock?_block hp.nonempty hp.fields]
  rfl

/-- what the section of the text is to say -/
def describedText (text : String) : Part where
  fields := [("Content-Type".toList, "text/plain; charset=utf-8".toList),
    ("Content-Transfer-Encoding".toList, "quoted-printable".toList)]
  body := QuotedPrintable.encode text.toList

/-- what the section of an attachment is to say: the three fields that describe the file, and its payload -/
def described (a : Attachment) : Part where
  fields := [("Content-Type".toList, unfolded a.mimeType.toList), ("Content-Transfer-Encoding".toList, "base64".toList),
    ("Content-Disposition".toList, unfolded (Disposition.encode a.fileName.toList))]
  body := Base64.wrapped a.payload

theorem seenPart_bodyPart (text : String) : seenPart (bodyPart text) = describedText text := by
  have hkind : unfolded "text/plain; charset=utf-8".toList = "text/plain; charset=utf-8".toList := by decide
  have hencoding : unfolded "quoted-printable".toList = "quoted-printable".toList := by decide
  simp only [seenPart, bodyPart, List.map_cons, List.map_nil, seen, hkind, hencoding, describedText]

theorem seenPart_attachmentPart (a : Attachment) : seenPart (attachmentPart a) = described a := by
  have hencoding : unfolded "base64".toList = "base64".toList := by decide
  simp only [seenPart, attachmentPart, List.map_cons, List.map_nil, seen, hencoding, described]

/-- the section of an attachment says what it is to say just if its kind is continued -/
theorem readSection?_attachmentPart_iff (a : Attachment) :
    readSection? (piece (attachmentPart a)) = some (described a) ↔ Continued a.mimeType.toList := by
  constructor
  · intro h
    rw [readSection?_piece, readPart?, Option.map_eq_some_iff] at h
    obtain ⟨⟨fields, body⟩, hread, hpart⟩ := h
    obtain ⟨rfl, -⟩ : fields = (described a).fields ∧ body = (described a).body := by simp [← hpart]
    exact continued_of_readBlock? (isNamed_of_name (by decide) (by decide)) hread
  · intro h
    rw [readSection?_of_isPart (isPart_attachmentPart h), seenPart_attachmentPart]

/-- **No attachment starts or ends a section, and only its kind can break its header block**: a message that was built
falls into one section for the text and one for each attachment, in order. The first has its two fields and no other.
Each of the others has its three fields and no other, with the payload behind them, just if every line of the kind of
the attachment but the first begins with a blank; the name of the file does not matter. -/
theorem sections_of_build {drawn : List (List Char)} {now : Calendar.Moment} {h : Headers} {text : String}
    {attachments : List Attachment} {m : Message} (hdrawn : ∀ b ∈ drawn, IsToken b)
    (hm : build drawn (Calendar.Rfc2822.write now) h text attachments = .ok m) :
    ∃ first files, (Utf8.decode? m.bytes).bind sections? = some (first :: files) ∧
      readSection? first = some (describedText text) ∧
      List.Forall₂ (fun a s => readSection? s = some (described a) ↔ Continued a.mimeType.toList) attachments files := by
  obtain ⟨fields, hne, htop, hboundary, hb, hclear, htext⟩ := exists_block_of_build hdrawn hm
  have hparts : ∀ p ∈ bodyPart text :: attachments.map attachmentPart, IsHeaded p := by
    intro p hp
    rcases List.mem_cons.1 hp with rfl | hp
    · exact (isPart_bodyPart text).headed
    · obtain ⟨a, -, rfl⟩ := List.mem_map.1 hp
      exact isHeaded_attachmentPart a
  have hsections := sections?_multipart hne htop hb hboundary hparts hclear
  refine ⟨piece (bodyPart text), (attachments.map attachmentPart).map piece, ?_, ?_, ?_⟩
  · rw [bytes, Utf8.decode?_encode, Option.bind_some, htext, hsections]
    rfl
  · rw [readSection?_of_isPart (isPart_bodyPart text), seenPart_bodyPart]
  · rw [List.map_map, List.forall₂_map_right_iff, List.forall₂_same]
    exact fun a _ => readSection?_attachmentPart_iff a

/-- a kind that is folded, and one that breaks its header block -/
theorem sections_of_build_kinds :
    (∀ b ∈ ["=_0123456789abcdef0123456789abcdef".toList], IsToken b) ∧
    ∃ m, build ["=_0123456789abcdef0123456789abcdef".toList]
        (Calendar.Rfc2822.write ⟨⟨2026, 10, 18⟩, ⟨9, 0, 0⟩, 0, 0⟩) ⟨"Ops <ops@example.com>", [], "Report"⟩ "Hello"
        [⟨"a\r\nb.csv", "text/csv;\r\n header=present", [0x2D]⟩, ⟨"b.csv", "text/csv\r\n\r\n--", []⟩] = .ok m ∧
      ∃ first files, (Utf8.decode? m.bytes).bind sections? = some (first :: files) ∧
        readSection? first = some (describedText "Hello") ∧
        List.Forall₂ (fun a s => readSection? s = some (described a) ↔ Continued a.mimeType.toList)
          [⟨"a\r\nb.csv", "text/csv;\r\n header=present", [0x2D]⟩, ⟨"b.csv", "text/csv\r\n\r\n--", []⟩] files := by
  have htoken : ∀ b ∈ ["=_0123456789abcdef0123456789abcdef".toList], IsToken b := by
    intro b hb
    obtain rfl := List.mem_singleton.1 hb
    refine ⟨"0123456789abcdef".toList ++ "0123456789abcdef".toList, by decide, by decide, ?_⟩
    intro c hc
    exact (List.mem_append.1 hc).elim id id
  refine ⟨htoken, exists_ok_and ?_ fun m hm => sections_of_build htoken hm⟩
  decide +kernel

/-- a kind of two lines adds a field to its header block -/
theorem injected_field :
    ((build ["=_0123456789abcdef0123456789abcdef".toList] (Calendar.Rfc2822.write ⟨⟨2026, 10, 18⟩, ⟨9, 0, 0⟩, 0, 0⟩)
      ⟨"Ops <ops@example.com>", [], "Report"⟩ "Hello"
      [⟨"a.csv", "text/csv\r\nX-Injected: 1", []⟩]).toOption.bind fun m => (Utf8.decode? m.bytes).bind read?).map
        (fun r => r.2.map fun p => p.fields.map fun f => String.ofList f.1) =
      some [["Content-Type", "Content-Transfer-Encoding"],
        ["Content-Type", "X-Injected", "Content-Transfer-Encoding", "Content-Disposition"]] := by
  decide +kernel

end Message

end SheetPost.Mail
