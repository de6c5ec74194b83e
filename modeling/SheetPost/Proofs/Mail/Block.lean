/-
Header blocks read back: fields, an empty line, and whatever follows. A field takes its first line and the lines that
begin with a blank behind it, so no line of a block is empty and the first empty line of a text is the one that ends the
block, also if what follows is empty or begins with an empty line itself.

Main statements:
- the reader finds the fields with their values unfolded, and the rest untouched (`readBlock?_block`);
- it finds the first of several fields only if the value of that field is continued (`continued_of_readBlock?`): a value
  with a line that does not begin with a blank is cut off there, whatever the line holds.
-/
import SheetPost.Mail.Message
import SheetPost.Proofs.Mail.Lines

namespace SheetPost.Mail.Message

open SheetPost.Text

/-- a field with a name that begins with a letter and ends before the first colon -/
structure IsNamed (f : List Char × List Char) : Prop where
  letter : ∃ c, f.1.head? = some c ∧ c.isAlpha = true
  colon : ':' ∉ f.1
  cr : '\r' ∉ f.1

/-- a field that a reader tells from the others: no line of its value begins a field or ends the block -/
structure IsField (f : List Char × List Char) : Prop extends IsNamed f where
  value : Continued f.2

/-- a field without its last line break -/
def fieldText (f : List Char × List Char) : List Char := f.1 ++ (':' :: ' ' :: f.2)

/-- a field as a reader sees it -/
def seen (f : List Char × List Char) : List Char × List Char := (f.1, unfolded f.2)

theorem fields_eq (f : List Char × List Char) (fs : List (List Char × List Char)) :
    (f :: fs).flatMap fieldLine = joinLines ((f :: fs).map fieldText) ++ crlf := by
  induction fs generalizing f with
  | nil => simp [fieldLine, fieldText, joinLines, join]
  | cons g fs ih =>
    have hj : joinLines ((f :: g :: fs).map fieldText) =
        fieldText f ++ (crlf ++ joinLines ((g :: fs).map fieldText)) := by
      simp [joinLines, join]
    rw [List.flatMap_cons, ih, hj]
    simp [fieldLine, fieldText]

/-! ## Lines of a block -/

theorem splitLines_block {fs : List (List Char × List Char)} (hne : fs ≠ []) (body : List Char) :
    splitLines (block fs body) = (fs.map fieldText).flatMap splitLines ++ ([] :: splitLines body) := by
  cases fs with
  | nil => exact absurd rfl hne
  | cons f fs =>
    rw [block, fields_eq, List.append_assoc, splitLines_append_crlf, List.map_cons, splitLines_joinLines]
    rfl

/-- the name of a field stands in the first of its lines -/
theorem splitLines_fieldText {f : List Char × List Char} (hf : IsNamed f) :
    ∃ l ls, splitLines f.2 = l :: ls ∧ splitLines (fieldText f) = fieldText (f.1, l) :: ls := by
  cases hs : splitLines f.2 with
  | nil => exact absurd hs (splitLines_ne_nil f.2)
  | cons l ls =>
    have hp : '\r' ∉ f.1 ++ [':', ' '] := by
      have := hf.cr
      simp [this]
    have := splitLines_append hp hs
    refine ⟨l, ls, rfl, ?_⟩
    rw [fieldText, fieldText]
    simpa using this

/-- a field begins with a letter -/
theorem IsNamed.head?_fieldText {name value : List Char} (hf : IsNamed (name, value)) (v : List Char) :
    ∃ c, (fieldText (name, v)).head? = some c ∧ c.isAlpha = true := by
  obtain ⟨c, hc, ha⟩ := hf.letter
  exact ⟨c, by rw [fieldText, List.head?_append, hc]; rfl, ha⟩

theorem ne_nil_of_goesOn {l : List Char} (h : goesOn l = true) : l ≠ [] := by
  intro heq
  subst heq
  cases h

theorem ne_nil_of_mem_fieldText {f : List Char × List Char} (hf : IsField f) :
    ∀ l ∈ splitLines (fieldText f), l ≠ [] := by
  obtain ⟨k, ks, hv, hs⟩ := splitLines_fieldText hf.toIsNamed
  intro l hl
  rw [hs] at hl
  rcases List.mem_cons.1 hl with rfl | hl
  · simp [fieldText]
  · exact ne_nil_of_goesOn (hf.value l (by rw [hv]; exact hl))

/-- a line break in front of a text and its line break is one of the two -/
theorem eq_of_prefix_crlf {h s : List Char} (hp : crlf <+: h ++ (crlf ++ s)) : h = [] ∨ ∃ t, h = '\r' :: '\n' :: t := by
  obtain ⟨r, hr⟩ := hp
  match h, hr with
  | [], _ => exact .inl rfl
  | [c], hr =>
    simp only [crlf, List.cons_append, List.nil_append, List.cons.injEq] at hr
    exact absurd hr.2.1 (by decide)
  | c :: d :: t, hr =>
    simp only [crlf, List.cons_append, List.nil_append, List.cons.injEq] at hr
    exact .inr ⟨t, by rw [← hr.1, ← hr.2.1]⟩

/-- the first empty line of a text ends what stands before it -/
theorem cutAtText_emptyLine {h : List Char} (hl : ∀ l ∈ (splitLines h).tail, l ≠ []) (rest : List Char) :
    cutAtText (crlf ++ crlf) (h ++ (crlf ++ (crlf ++ rest))) = some (h, rest) := by
  fun_induction splitLines h with
  | case1 => simp [cutAtText, crlf, after?]
  | case2 r ih =>
    rw [List.tail_cons] at hl
    have hnot : ¬ crlf ++ crlf <+: '\r' :: '\n' :: (r ++ (crlf ++ (crlf ++ rest))) := by
      -- the text behind this line break is not empty and does not begin with another one
      intro hp
      have hr : crlf <+: r ++ (crlf ++ (crlf ++ rest)) := by simpa [crlf] using hp
      rcases eq_of_prefix_crlf hr with rfl | ⟨t, rfl⟩
      · exact hl [] (by simp [splitLines]) rfl
      · exact hl [] (by simp [splitLines]) rfl
    have hlf : after? (crlf ++ crlf) ('\n' :: (r ++ (crlf ++ (crlf ++ rest)))) = none := by simp [after?, crlf]
    rw [List.cons_append, List.cons_append, cutAtText, after?_eq_none_iff.2 hnot]
    simp only
    rw [cutAtText, hlf]
    simp only
    rw [ih fun l h => hl l (List.mem_of_mem_tail h)]
    rfl
  | case3 c r _ hs _ => exact absurd hs (splitLines_ne_nil r)
  | case4 c r hc line lines hs ih =>
    have hnot : ¬ crlf ++ crlf <+: c :: r ++ (crlf ++ (crlf ++ rest)) := by
      intro hp
      have hp : crlf <+: c :: r ++ (crlf ++ (crlf ++ rest)) := (List.prefix_append crlf crlf).trans hp
      rcases eq_of_prefix_crlf hp with h | ⟨t, h⟩
      · cases h
      · rw [List.cons.injEq] at h
        exact hc t h.1 h.2
    rw [List.cons_append] at hnot ⊢
    rw [cutAtText, after?_eq_none_iff.2 hnot]
    simp only
    rw [ih (by rw [hs]; exact hl)]
    rfl

/-- the lines up to the first empty one are those of the fields, whatever stands behind it -/
theorem readBlock?_of_splitLines {s first : List Char} {lines more : List (List Char)}
    (hs : splitLines s = first :: lines ++ [] :: more) (hfirst : first ≠ []) (hl : [] ∉ lines) (hmore : more ≠ []) :
    readBlock? s = ((unfold (first :: lines)).mapM readField?).map fun fields => (fields, joinLines more) := by
  have htext : s = joinLines (first :: lines) ++ (crlf ++ (crlf ++ joinLines more)) := by
    have hj : joinLines (first :: lines ++ [] :: more) =
        joinLines (first :: lines) ++ (crlf ++ (crlf ++ joinLines more)) := by
      clear hs hl hfirst
      induction lines generalizing first with
      | nil =>
        cases more with
        | nil => exact absurd rfl hmore
        | cons m more => simp [joinLines, join]
      | cons l lines ih =>
        have := @ih l
        simp only [joinLines, List.cons_append, join] at this ⊢
        rw [this]
        simp
    rw [← hj, ← hs, joinLines_splitLines]
  have hlines : splitLines (joinLines (first :: lines)) = first :: lines := splitLines_joinLines_of_append hs
  have hnone : after? crlf s = none := by
    rw [after?_eq_none_iff]
    intro h
    obtain ⟨t, rfl⟩ := h
    have hempty : splitLines (crlf ++ t) = [] :: splitLines t := rfl
    rw [hempty, List.cons_append, List.cons.injEq] at hs
    exact hfirst hs.1.symm
  have hfull : ∀ l ∈ (splitLines (joinLines (first :: lines))).tail, l ≠ [] := by
    rw [hlines]
    intro l h heq
    exact hl (heq ▸ h)
  have hcut := cutAtText_emptyLine hfull (joinLines more)
  rw [← htext] at hcut
  rw [readBlock?, hnone]
  simp only
  rw [hcut]
  simp only
  rw [hlines]

/-! ## Fields -/

theorem goesOn_of_letter {l : List Char} {c : Char} (hc : l.head? = some c) (ha : c.isAlpha = true) :
    goesOn l = false := by
  have hspace : c ≠ ' ' := by
    intro heq
    subst heq
    exact absurd ha (by decide)
  have htab : c ≠ '\t' := by
    intro heq
    subst heq
    exact absurd ha (by decide)
  simp [goesOn, hc, hspace, htab]

/-- lines that go on are joined to the line before them, up to one that does not -/
theorem unfold_append {lines more : List (List Char)} (first : List Char) (hl : ∀ l ∈ lines, goesOn l = true)
    (hm : more.head?.any goesOn = false) :
    unfold (first :: (lines ++ more)) = (first :: lines).flatten :: unfold more := by
  have hbegins (ls : List (List Char)) :
      (ls.head?.bind List.head?).any (fun c => c == ' ' || c == '\t') = ls.head?.any goesOn := by
    cases ls <;> rfl
  induction lines generalizing first with
  | nil =>
    rw [List.nil_append, unfold, hbegins, hm]
    cases unfold more with
    | nil => simp
    | cons next rest => simp
  | cons l lines ih =>
    have hgoes : (l :: lines ++ more).head?.any goesOn = true := hl l List.mem_cons_self
    rw [unfold, hbegins, hgoes, List.cons_append, ih l fun k hk => hl k (List.mem_cons_of_mem l hk)]
    simp

/-- unfolding the lines of fields gives each field as a reader sees it -/
theorem unfold_fieldText {fs : List (List Char × List Char)} (hf : ∀ f ∈ fs, IsField f) :
    unfold ((fs.map fieldText).flatMap splitLines) = fs.map fun f => fieldText (seen f) := by
  induction fs with
  | nil => rfl
  | cons f fs ih =>
    obtain ⟨l, ls, hv, hs⟩ := splitLines_fieldText (hf f List.mem_cons_self).toIsNamed
    have hnext : ((fs.map fieldText).flatMap splitLines).head?.any goesOn = false := by
      cases fs with
      | nil => rfl
      | cons g fs =>
        have hg := (hf g (by simp)).toIsNamed
        obtain ⟨k, ks, -, hlines⟩ := splitLines_fieldText hg
        obtain ⟨c, hc, ha⟩ := hg.head?_fieldText k
        rw [List.map_cons, List.flatMap_cons, hlines]
        exact goesOn_of_letter hc ha
    have hcont : ∀ k ∈ ls, goesOn k = true := by
      have := (hf f List.mem_cons_self).value
      rwa [Continued, hv] at this
    rw [List.map_cons, List.flatMap_cons, hs, List.cons_append, unfold_append _ hcont hnext,
      ih fun g hg => hf g (List.mem_cons_of_mem f hg)]
    simp [fieldText, seen, unfolded, hv]

theorem readField?_fieldText {f : List Char × List Char} (hf : ':' ∉ f.1) : readField? (fieldText f) = some f := by
  have hno : ¬ [':', ' '] <:+: f.1 := by
    intro h
    exact hf (h.subset (by simp))
  exact cutAtText_append (by decide) hno

theorem mapM_readField? {fs : List (List Char × List Char)} (hf : ∀ f ∈ fs, ':' ∉ f.1) :
    (fs.map fieldText).mapM readField? = some fs := by
  induction fs with
  | nil => rfl
  | cons f fs ih =>
    rw [List.map_cons, List.mapM_cons, readField?_fieldText (hf f List.mem_cons_self),
      ih fun g hg => hf g (List.mem_cons_of_mem f hg)]
    rfl

/-- **The fields of a block are read with their values unfolded, and the rest as it stands** -/
theorem readBlock?_block {fs : List (List Char × List Char)} (hne : fs ≠ []) (hf : ∀ f ∈ fs, IsField f)
    (rest : List Char) : readBlock? (block fs rest) = some (fs.map seen, rest) := by
  have hfull : [] ∉ (fs.map fieldText).flatMap splitLines := by
    intro h
    rw [List.flatMap_map, List.mem_flatMap] at h
    obtain ⟨g, hg, h⟩ := h
    exact ne_nil_of_mem_fieldText (hf g hg) [] h rfl
  have hcolon : ∀ g ∈ fs.map seen, ':' ∉ g.1 := by
    intro g hg
    obtain ⟨k, hk, rfl⟩ := List.mem_map.1 hg
    exact (hf k hk).colon
  have hread : (unfold ((fs.map fieldText).flatMap splitLines)).mapM readField? = some (fs.map seen) := by
    rw [unfold_fieldText hf, ← mapM_readField? hcolon, List.map_map]
    rfl
  have hs := splitLines_block hne rest
  cases hlines : (fs.map fieldText).flatMap splitLines with
  | nil =>
    cases fs with
    | nil => exact absurd rfl hne
    | cons f fs => exact absurd (List.append_eq_nil_iff.1 hlines).1 (splitLines_ne_nil _)
  | cons first lines =>
    rw [hlines] at hs hfull hread
    rw [List.mem_cons, not_or] at hfull
    rw [readBlock?_of_splitLines hs (Ne.symm hfull.1) hfull.2 (splitLines_ne_nil rest), hread, joinLines_splitLines]
    rfl

/-! ## Values that are cut off -/

/-- a list with an empty line in front of others has a first empty line in front of others -/
theorem exists_firstEmpty (lines : List (List Char)) {more : List (List Char)} (hmore : more ≠ []) :
    ∃ before behind, lines ++ [] :: more = before ++ [] :: behind ∧ [] ∉ before ∧ behind ≠ [] := by
  by_cases h : [] ∈ lines
  · obtain ⟨before, behind, rfl, hno⟩ := List.eq_append_cons_of_mem h
    exact ⟨before, behind ++ [] :: more, by simp, hno, by simp⟩
  · exact ⟨lines, more, rfl, h, hmore⟩

/-- a value that is not continued has a first line that does not go on -/
theorem exists_cut_of_not_continued {v : List Char} (h : ¬ Continued v) :
    ∃ l kept b lost, splitLines v = l :: (kept ++ b :: lost) ∧ (∀ k ∈ kept, goesOn k = true) ∧ goesOn b = false := by
  cases hs : splitLines v with
  | nil => exact absurd hs (splitLines_ne_nil v)
  | cons l ls =>
    rw [Continued, hs, List.tail_cons] at h
    cases hf : ls.find? fun k => !goesOn k with
    | none => exact absurd (by simpa using hf) h
    | some b =>
      obtain ⟨hb, kept, lost, rfl, hkept⟩ := List.find?_eq_some_iff_append.1 hf
      exact ⟨l, kept, b, lost, rfl, by simpa using hkept, by simpa using hb⟩

/-- **The first of several fields is read only if its value is continued**. Otherwise the value ends before the first
line that does not go on; that line is lost, or it is empty and the block ends with the field. -/
theorem continued_of_readBlock? {name value rest rest' : List Char} {fs more : List (List Char × List Char)}
    {g : List Char × List Char} (hn : IsNamed (name, value))
    (h : readBlock? (block ((name, value) :: fs) rest) = some ((name, unfolded value) :: g :: more, rest')) :
    Continued value := by
  by_contra hcont
  obtain ⟨l, kept, b, lost, hv, hkept, hb⟩ := exists_cut_of_not_continued hcont
  obtain ⟨before, behind, hcut, hno, hbehind⟩ := exists_firstEmpty
    (b :: lost ++ (fs.map fieldText).flatMap splitLines) (splitLines_ne_nil rest)
  have hlines : splitLines (block ((name, value) :: fs) rest) =
      fieldText (name, l) :: (kept ++ before) ++ [] :: behind := by
    obtain ⟨k, ks, hk, hs⟩ := splitLines_fieldText hn
    rw [hv, List.cons.injEq] at hk
    rw [splitLines_block (by simp), List.map_cons, List.flatMap_cons, hs, ← hk.1, ← hk.2]
    simpa using hcut
  have hnext : before.head?.any goesOn = false := by
    cases before with
    | nil => rfl
    | cons k before =>
      rw [List.cons_append, List.cons_append, List.cons_append, List.cons.injEq] at hcut
      rw [List.head?_cons, Option.any_some, ← hcut.1, hb]
  have hfull : [] ∉ kept ++ before := by
    rw [List.mem_append, not_or]
    exact ⟨fun hk => ne_nil_of_goesOn (hkept [] hk) rfl, hno⟩
  have hfield : (fieldText (name, l) :: kept).flatten = fieldText (name, l ++ kept.flatten) := by simp [fieldText]
  have hfirst : readField? (fieldText (name, l ++ kept.flatten)) = some (name, l ++ kept.flatten) :=
    readField?_fieldText hn.colon
  rw [readBlock?_of_splitLines hlines (by simp [fieldText]) hfull hbehind, unfold_append _ hkept hnext, hfield,
    List.mapM_cons, hfirst] at h
  cases hm : (unfold before).mapM readField? with
  | none =>
    rw [hm] at h
    cases h
  | some others =>
    rw [hm] at h
    obtain ⟨⟨⟨-, hread⟩, hothers⟩, -⟩ : ((name = name ∧ l ++ kept.flatten = unfolded value) ∧ others = g :: more) ∧
        joinLines behind = rest' := by
      simpa using h
    have hempty : b = [] := by
      have hall : l ++ kept.flatten ++ [] = l ++ kept.flatten ++ (b ++ lost.flatten) := by
        calc l ++ kept.flatten ++ [] = unfolded value := by rw [List.append_nil, hread]
          _ = l ++ kept.flatten ++ (b ++ lost.flatten) := by simp [unfolded, hv]
      exact (List.append_eq_nil_iff.1 (List.append_cancel_left hall).symm).1
    have hnil : before = [] := by
      cases before with
      | nil => rfl
      | cons k before =>
        rw [List.cons_append, List.cons_append, List.cons_append, List.cons.injEq] at hcut
        exact absurd (by rw [← hcut.1, hempty]; exact List.mem_cons_self) hno
    rw [hnil] at hm
    cases hm
    cases hothers

end SheetPost.Mail.Message
