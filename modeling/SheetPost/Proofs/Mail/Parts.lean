/-
A message of several parts, read back: the pieces between the delimiters are the parts as they were written. A line that
begins with the delimiter begins no field, because a name begins with a letter, and it stands in no value and in no
body, because the boundary was chosen so. The values may be any texts for that.

Main statement: header fields and parts are read back from what is written of them (`read?_multipart`).
-/
import SheetPost.Proofs.Mail.Block

namespace SheetPost.Mail.Message

open SheetPost.Text

/-- a part as a reader sees it -/
def seenPart (p : Part) : Part := ⟨p.fields.map seen, p.body⟩

/-- a line break and the delimiter behind it -/
def delimiter (boundary : List Char) : List Char := crlf ++ ('-' :: '-' :: boundary)

/-- what stands between two delimiters -/
def piece (p : Part) : List Char := crlf ++ block p.fields p.body

/-- what stands behind the last delimiter -/
def closing : List Char := '-' :: '-' :: crlf

/-- a part with a field, and a name for each of its fields -/
structure IsHeaded (p : Part) : Prop where
  nonempty : p.fields ≠ []
  named : ∀ f ∈ p.fields, IsNamed f

/-- a part whose fields are told from each other, and that has at least one -/
structure IsPart (p : Part) : Prop where
  nonempty : p.fields ≠ []
  fields : ∀ f ∈ p.fields, IsField f

theorem IsPart.headed {p : Part} (hp : IsPart p) : IsHeaded p := ⟨hp.nonempty, fun f hf => (hp.fields f hf).toIsNamed⟩

/-! ## Delimiters -/

/-- parts between delimiters, as pieces that the delimiters separate -/
theorem multipart_eq (boundary : List Char) (p : Part) (ps : List Part) :
    crlf ++ multipart boundary (p :: ps) = join (delimiter boundary) ([] :: ((p :: ps).map piece ++ [closing])) := by
  have hcons (q : List Char) (qs : List (List Char)) :
      join (delimiter boundary) ([] :: q :: qs) = delimiter boundary ++ join (delimiter boundary) (q :: qs) := by
    simp [join]
  induction ps generalizing p with
  | nil => simp [multipart, join, partText, piece, closing, delimiter]
  | cons q ps ih =>
    have hm : crlf ++ multipart boundary (p :: q :: ps) =
        delimiter boundary ++ (piece p ++ (crlf ++ multipart boundary (q :: ps))) := by
      simp [multipart, join, partText, piece, delimiter]
    rw [hm, ih q, List.map_cons, List.map_cons, List.cons_append, hcons, List.cons_append, hcons]
    simp [join]

/-- a line of a field that begins with two hyphens is one of its value -/
theorem mem_value_of_hyphens {f : List Char × List Char} (hf : IsNamed f) {d l : List Char}
    (hl : l ∈ splitLines (fieldText f)) (hd : '-' :: d <+: l) : l ∈ splitLines f.2 := by
  obtain ⟨k, ks, hv, hs⟩ := splitLines_fieldText hf
  rw [hs] at hl
  rcases List.mem_cons.1 hl with rfl | hl
  · obtain ⟨c, hc, ha⟩ := hf.head?_fieldText k
    obtain ⟨r, hr⟩ := hd
    rw [← hr, List.cons_append, List.head?_cons, Option.some.injEq] at hc
    subst hc
    exact absurd ha (by decide)
  · rw [hv]
    exact List.mem_cons_of_mem k hl

/-- a line of a part that begins with two hyphens stands in its body or in a value -/
theorem infix_of_hyphens {p : Part} (hp : IsHeaded p) {d l : List Char} (hl : l ∈ splitLines (block p.fields p.body))
    (hd : '-' :: d <+: l) : l <:+: p.body ∨ ∃ f ∈ p.fields, l <:+: f.2 := by
  rw [splitLines_block hp.nonempty, List.mem_append, List.mem_cons] at hl
  rcases hl with hl | rfl | hl
  · rw [List.flatMap_map, List.mem_flatMap] at hl
    obtain ⟨f, hf, hl⟩ := hl
    exact .inr ⟨f, hf, infix_of_mem_splitLines (mem_value_of_hyphens (hp.named f hf) hl hd)⟩
  · exact absurd (List.prefix_nil.1 hd) (by simp)
  · exact .inl (infix_of_mem_splitLines hl)

theorem not_infix_piece {boundary : List Char} {p : Part} {ps : List Part} (hb : '\r' ∉ boundary) (hp : IsHeaded p)
    (hmem : p ∈ ps) (hc : clashes ps boundary = false) : ¬ delimiter boundary <:+: piece p := by
  intro h
  have hcr : '\r' ∉ '-' :: '-' :: boundary := by simpa using hb
  obtain ⟨l, hl, hd⟩ := exists_line_of_crlf hcr h
  have hlines : splitLines (piece p) = [] :: splitLines (block p.fields p.body) := rfl
  rw [hlines, List.tail_cons] at hl
  have hclear := List.any_eq_false.1 hc p hmem
  rw [Bool.or_eq_true, List.any_eq_true, not_or] at hclear
  rcases infix_of_hyphens hp hl hd with hbody | ⟨f, hf, hvalue⟩
  · exact hclear.1 (occursIn_iff.2 (hd.isInfix.trans hbody))
  · exact hclear.2 ⟨f, hf, occursIn_iff.2 (hd.isInfix.trans hvalue)⟩

theorem not_infix_closing (boundary : List Char) : ¬ delimiter boundary <:+: closing := by
  intro h
  have := h.length_le
  have hle : (delimiter boundary).length = boundary.length + 4 := by simp [delimiter, crlf]
  have hnil : boundary = [] := by
    rw [hle] at this
    simpa [closing, crlf] using this
  subst hnil
  have heq : delimiter [] = closing := h.eq_of_length (by rfl)
  exact absurd heq (by decide)

theorem splitAtText_multipart {boundary : List Char} {p : Part} {ps : List Part} (hb : '\r' ∉ boundary)
    (hp : ∀ q ∈ p :: ps, IsHeaded q) (hc : clashes (p :: ps) boundary = false) :
    splitAtText (delimiter boundary) (crlf ++ multipart boundary (p :: ps)) =
      [] :: ((p :: ps).map piece ++ [closing]) := by
  have hx : '\r' ∉ '\n' :: '-' :: '-' :: boundary := by simpa using hb
  rw [multipart_eq]
  apply splitAtText_join hx [] _
  intro q hq
  rcases List.mem_cons.1 hq with rfl | hq
  · intro h
    exact absurd (List.infix_nil.1 h) (by simp)
  rcases List.mem_append.1 hq with hq | hq
  · obtain ⟨r, hr, rfl⟩ := List.mem_map.1 hq
    exact not_infix_piece hb (hp r hr) hr hc
  · rw [List.mem_singleton.1 hq]
    exact not_infix_closing boundary

/-! ## Parts -/

theorem readParts?_pieces {ps : List Part} (hp : ∀ p ∈ ps, IsPart p) :
    readParts? (ps.map piece ++ [closing]) = some (ps.map seenPart) := by
  induction ps with
  | nil => rfl
  | cons p ps ih =>
    have hpart : (after? crlf (piece p)).bind readPart? = some (seenPart p) := by
      rw [piece, after?_append, Option.bind_some, readPart?,
        readBlock?_block (hp p List.mem_cons_self).nonempty (hp p List.mem_cons_self).fields]
      rfl
    have ih := ih fun q hq => hp q (List.mem_cons_of_mem p hq)
    have hmore : ps.map piece ++ [closing] ≠ [] := by simp
    rw [List.map_cons, List.cons_append]
    rw [readParts?.eq_3 _ _ hmore, hpart, ih]
    rfl

/-- **A message is read back**: its header fields with their values unfolded, and each of its parts, in order -/
theorem read?_multipart {boundary : List Char} {fs : List (List Char × List Char)} {p : Part} {ps : List Part}
    (hne : fs ≠ []) (hf : ∀ f ∈ fs, IsField f) (hb : '\r' ∉ boundary)
    (hread : ((fs.map seen).lookup "Content-Type".toList).bind readBoundary? = some boundary)
    (hp : ∀ q ∈ p :: ps, IsPart q) (hc : clashes (p :: ps) boundary = false) :
    read? (block fs (multipart boundary (p :: ps))) = some (fs.map seen, (p :: ps).map seenPart) := by
  have hsplit := splitAtText_multipart hb (fun q hq => (hp q hq).headed) hc
  rw [delimiter] at hsplit
  rw [read?, readBlock?_block hne hf]
  simp only
  rw [hread]
  simp only
  rw [hsplit]
  simp only
  rw [readParts?_pieces hp]
  rfl

end SheetPost.Mail.Message
