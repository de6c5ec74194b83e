/-
The header block of a message. Folds put line breaks into it on purpose, each with a space behind it; no other line
break of the mailboxes or the subject gets there, so a reader finds the six fields and nothing else.

Main statement: the fields of a message that was built, as they are read back from its bytes (`heads_of_build`).
-/
import SheetPost.Proofs.Mail.EncodedWord
import SheetPost.Proofs.Mail.RoundTrip

namespace SheetPost.Mail.Message

open SheetPost.Text

/-- the names of the fields of a message -/
def fieldNames : List (List Char) :=
  ["From".toList, "To".toList, "Subject".toList, "Date".toList, "MIME-Version".toList, "Content-Type".toList]

/-- the unfolded fields of a message, as they are to be read from its header block -/
structure Heads (h : Headers) (boundary : List Char) (fields : List (List Char × List Char)) : Prop where
  names : fields.map Prod.fst = fieldNames
  /-- a subject of ASCII stands as it is, and a reader decodes the encoded words of any other -/
  plain : isAscii h.subject.toList = true → fields.lookup "Subject".toList = some h.subject.toList
  encoded : isAscii h.subject.toList = false →
    (fields.lookup "Subject".toList).map EncodedWord.decodeText = some h.subject.toList
  boundary : (fields.lookup "Content-Type".toList).bind readBoundary? = some boundary

/-- what follows the header block: `n` parts, each behind a line of the delimiter, and the line that closes the last -/
def Delimits (boundary : List Char) (n : Nat) (rest : List Char) : Prop :=
  ∃ sections, splitAtText (delimiter boundary) (crlf ++ rest) = [] :: (sections ++ [closing]) ∧
    sections.length = n ∧ ∀ s ∈ sections, crlf <+: s

theorem lookup_subject (sender recipients subject date boundary : List Char) :
    ((topFields sender recipients subject date boundary).map seen).lookup "Subject".toList =
      some (unfolded (EncodedWord.encode subject)) := by
  unfold topFields
  rw [lookup_seen, lookup_behind, lookup_behind, List.lookup_cons_self, Option.map_some]
  all_goals decide

theorem heads_topFields {h : Headers} {boundary : List Char} (hb : IsToken boundary)
    (hs : hasBreak h.subject.toList = false) (sender recipients date : List Char) :
    Heads h boundary ((topFields sender recipients h.subject.toList date boundary).map seen) where
  names := rfl
  plain := by
    intro hascii
    rw [lookup_subject, EncodedWord.encode, if_pos hascii, unfolded_of_hasBreak hs]
  encoded := by
    intro hascii
    rw [lookup_subject, Option.map_some, EncodedWord.decodeText_unfolded_encode hascii]
  boundary := lookup_boundary hb _ _ _ _

theorem delimits_multipart {boundary : List Char} {p : Part} {ps : List Part} (hb : '\r' ∉ boundary)
    (hp : ∀ q ∈ p :: ps, IsHeaded q) (hc : clashes (p :: ps) boundary = false) :
    Delimits boundary (1 + ps.length) (multipart boundary (p :: ps)) := by
  refine ⟨(p :: ps).map piece, splitAtText_multipart hb hp hc, by simp [Nat.add_comm], ?_⟩
  intro s hs
  obtain ⟨q, -, rfl⟩ := List.mem_map.1 hs
  exact List.prefix_append crlf _

/-- **The header block of a message that was built**: up to the first empty line its bytes unfold to six fields, in a
fixed order. The subject is read back from its field, and the boundary from the last field is the one of the delimiter
lines behind the block. The texts of the mailboxes, the subject, the body and the attachments may be any. -/
theorem heads_of_build {drawn : List (List Char)} {now : Calendar.Moment} {h : Headers} {text : String}
    {attachments : List Attachment} {m : Message} (hdrawn : ∀ b ∈ drawn, IsToken b)
    (hm : build drawn (Calendar.Rfc2822.write now) h text attachments = .ok m) :
    ∃ fields rest, (Utf8.decode? m.bytes).bind readBlock? = some (fields, rest) ∧ Heads h m.boundary fields ∧
      Delimits m.boundary (1 + attachments.length) rest := by
  obtain ⟨sender, recipients, -, -, htoken, htop, hclear, htext⟩ := exists_topFields_of_build hdrawn hm
  obtain ⟨-, -, hchecked, -⟩ := exists_of_build hm
  have hsubject := (unbroken_of_checked hchecked).subject
  have hparts : ∀ p ∈ bodyPart text :: attachments.map attachmentPart, IsHeaded p := by
    intro p hp
    rcases List.mem_cons.1 hp with rfl | hp
    · exact (isPart_bodyPart text).headed
    · obtain ⟨a, -, rfl⟩ := List.mem_map.1 hp
      exact isHeaded_attachmentPart a
  have hrest := delimits_multipart (htoken.not_mem (by decide)) hparts hclear
  rw [List.length_map] at hrest
  exact ⟨_, _, readBlock?_bytes (by simp [topFields]) htop htext,
    heads_topFields htoken hsubject sender recipients (Calendar.Rfc2822.write now), hrest⟩

/-- names and a subject beyond ASCII, long enough for more than one word each -/
theorem heads_of_build_folded :
    (∀ b ∈ ["=_0123456789abcdef0123456789abcdef".toList], IsToken b) ∧
    ∃ m, build ["=_0123456789abcdef0123456789abcdef".toList]
        (Calendar.Rfc2822.write ⟨⟨2026, 10, 18⟩, ⟨9, 0, 0⟩, 0, 0⟩)
        ⟨"T\u00e4gliche Berichte der Abteilung f\u00fcr Zahlen <ops@example.com>", ["\u00c4, B <a@b.co>"],
          "Subject: T\u00e4glicher Bericht \u00fcber den gestrigen Tag"⟩ "\r\n--x" [⟨"a.csv", "text/csv", []⟩] = .ok m ∧
      ∃ fields rest, (Utf8.decode? m.bytes).bind readBlock? = some (fields, rest) ∧
        Heads ⟨"T\u00e4gliche Berichte der Abteilung f\u00fcr Zahlen <ops@example.com>", ["\u00c4, B <a@b.co>"],
          "Subject: T\u00e4glicher Bericht \u00fcber den gestrigen Tag"⟩ m.boundary fields ∧
        Delimits m.boundary (1 + 1) rest := by
  have htoken : ∀ b ∈ ["=_0123456789abcdef0123456789abcdef".toList], IsToken b := by decide
  refine ⟨htoken, exists_ok_and ?_ fun m hm => heads_of_build htoken hm⟩
  decide +kernel

end SheetPost.Mail.Message
