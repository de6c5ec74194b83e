/-
What is written into header fields has no line breaks but folds: mailboxes, encoded words, file names and dates. Text of
the user comes in with no line breaks, or has them flattened to spaces; what is made of it by encoding has none.
-/
import SheetPost.Proofs.Calendar.Rfc2822
import SheetPost.Proofs.Mail.Base64
import SheetPost.Proofs.Mail.Build
import SheetPost.Proofs.Mail.Mailbox

namespace SheetPost.Mail

open SheetPost.Text

/-! ## Texts without line breaks -/

/-- a text of characters that all have a property which line breaks do not have -/
theorem hasBreak_of_forall {P : Char → Prop} {s : List Char} (h : ∀ c ∈ s, P c) (hcr : ¬ P '\r') (hlf : ¬ P '\n') :
    hasBreak s = false := by
  rw [hasBreak_eq_false_iff]
  intro c hc
  refine ⟨?_, ?_⟩
  · intro heq
    subst heq
    exact hcr (h _ hc)
  · intro heq
    subst heq
    exact hlf (h _ hc)

theorem hasBreak_append {s t : List Char} (hs : hasBreak s = false) (ht : hasBreak t = false) :
    hasBreak (s ++ t) = false := by
  rw [hasBreak, List.any_append, Bool.or_eq_false_iff]
  exact ⟨hs, ht⟩

theorem hasBreak_of_subset {s t : List Char} (hs : s ⊆ t) (ht : hasBreak t = false) : hasBreak s = false := by
  rw [hasBreak_eq_false_iff] at ht ⊢
  exact fun c hc => ht c (hs hc)

theorem hasBreak_of_isDigit {s : List Char} (h : ∀ c ∈ s, Base64.IsDigit c) : hasBreak s = false := by
  exact hasBreak_of_forall h (fun hcr => hcr.ne.1 rfl) (fun hlf => hlf.ne.2.1 rfl)

theorem hasBreak_flatMap {α : Type} {f : α → List Char} {l : List α} (h : ∀ a ∈ l, hasBreak (f a) = false) :
    hasBreak (l.flatMap f) = false := by
  rw [hasBreak_eq_false_iff]
  intro c hc
  obtain ⟨a, ha, hc⟩ := List.mem_flatMap.1 hc
  exact hasBreak_eq_false_iff.1 (h a ha) c hc

theorem hasBreak_body {s : List Char} (h : hasBreak s = false) : hasBreak (QuotedString.body s) = false := by
  apply hasBreak_flatMap
  intro c hc
  have := hasBreak_eq_false_iff.1 h c hc
  unfold QuotedString.escape
  split <;> simp [hasBreak, this]

theorem isAscii_body (s : List Char) : isAscii (QuotedString.body s) = isAscii s := by
  induction s with
  | nil => rfl
  | cons c s ih =>
    have e : QuotedString.body (c :: s) = QuotedString.escape c ++ QuotedString.body s := rfl
    have hescape : isAscii (QuotedString.escape c) = decide (c.toNat < 0x80) := by
      unfold QuotedString.escape
      split
      · next h =>
        rw [Bool.or_eq_true, beq_iff_eq, beq_iff_eq] at h
        rcases h with rfl | rfl <;> decide
      · simp [isAscii]
    rw [e, isAscii_append, hescape, ih, isAscii_cons]

/-- one backslash more for each of the two signs -/
theorem length_body (s : List Char) :
    (QuotedString.body s).length = s.length + (s.count '"' + s.count '\\') := by
  induction s with
  | nil => rfl
  | cons c s ih =>
    have e : QuotedString.body (c :: s) = QuotedString.escape c ++ QuotedString.body s := rfl
    rw [e, List.length_append, ih, List.length_cons, List.count_cons, List.count_cons, QuotedString.escape]
    by_cases hb : c = '\\'
    · subst hb
      simp
      omega
    · by_cases hq : c = '"'
      · subst hq
        simp
        omega
      · simp [hb, hq]
        omega

/-- only a text without the two signs stands between quotes as it is -/
theorem body_eq_self_iff {s : List Char} : QuotedString.body s = s ↔ '"' ∉ s ∧ '\\' ∉ s := by
  constructor
  · intro h
    have hlength := length_body s
    rw [h] at hlength
    exact ⟨List.count_eq_zero.1 (by omega), List.count_eq_zero.1 (by omega)⟩
  · intro h
    exact QuotedString.body_of_not_mem h.2 h.1

theorem hasBreak_percent {plain : UInt8 → Bool} (hp : ∀ b, plain b = true → hasBreak [Char.ofNat b.toNat] = false)
    (bytes : List UInt8) : hasBreak (Percent.encode plain bytes) = false := by
  have hdigit : ∀ n : Fin 16, hasBreak [hexDigit n] = false := by decide
  apply hasBreak_flatMap
  intro b _
  have hb := b.toNat_lt
  split
  · next h => exact hp b h
  · rw [Percent.escape, hexByte]
    have h1 := hdigit ⟨b.toNat / 16, by omega⟩
    have h2 := hdigit ⟨b.toNat % 16, by omega⟩
    simp only [hasBreak, List.any_cons, List.any_nil, Bool.or_false] at h1 h2 ⊢
    rw [h1, h2]
    rfl

/-! ## Encoded words -/

theorem hasBreak_word (s : List Char) : hasBreak (EncodedWord.word s) = false := by
  have hdigits : hasBreak (Base64.encode (Utf8.encode s)) = false := hasBreak_of_isDigit Base64.isDigit_of_mem_encode
  exact hasBreak_append (by decide) (hasBreak_append hdigits (by decide))

theorem folded_encode {s : List Char} (h : hasBreak s = false) : Folded (EncodedWord.encode s) := by
  unfold EncodedWord.encode
  split
  · exact folded_of_hasBreak h
  · apply Folded.join (.fold .nil)
    intro w hw
    obtain ⟨piece, -, rfl⟩ := List.mem_map.1 hw
    exact folded_of_hasBreak (hasBreak_word piece)

/-! ## Mailboxes -/

theorem hasBreak_of_parse {s : List Char} {m : Mailbox} (hs : hasBreak s = false) (h : Mailbox.parse s = .ok m) :
    hasBreak m.name = false ∧ hasBreak m.address.text = false := by
  obtain ⟨hn, ha⟩ := Mailbox.parse_eq_ok_iff.1 h
  have hsub := Mailbox.subset_of_parts (trim s)
  rw [hn, Address.text_of_parse ha]
  exact ⟨hasBreak_of_subset (List.Subset.trans hsub.1 (infix_trim s).subset) hs,
    hasBreak_of_subset (List.Subset.trans hsub.2 (infix_trim s).subset) hs⟩

theorem folded_render {s : List Char} {m : Mailbox} (hs : hasBreak s = false) (h : Mailbox.parse s = .ok m) :
    Folded m.render := by
  obtain ⟨hname, haddr⟩ := hasBreak_of_parse hs h
  have hangle : Folded (' ' :: '<' :: (m.address.text ++ ['>'])) := by
    refine folded_of_hasBreak ?_
    simpa [hasBreak] using haddr
  simp only [Mailbox.render]
  split
  · exact folded_of_hasBreak haddr
  · split
    · refine Folded.append (folded_of_hasBreak ?_) hangle
      have := hasBreak_body hname
      simpa [QuotedString.encode, hasBreak] using this
    · exact (folded_encode hname).append hangle

theorem folded_renderMailbox {field : Field} {value : String} {v : List Char} (hb : hasBreak value.toList = false)
    (h : Message.renderMailbox field value = .ok v) : Folded v := by
  obtain ⟨m, hm, rfl⟩ := Message.exists_of_renderMailbox h
  exact folded_render hb hm

/-! ## File names -/

theorem hasBreak_flatten (name : List Char) : hasBreak (Disposition.flatten name) = false := by
  rw [hasBreak_eq_false_iff]
  intro c hc
  obtain ⟨d, -, rfl⟩ := List.mem_map.1 hc
  by_cases hd : (d == '\r' || d == '\n') = true
  · simp [hd]
  · rw [if_neg hd]
    simpa using hd

theorem hasBreak_extended (name : List Char) : hasBreak (Disposition.extended name) = false := by
  refine hasBreak_append (by decide) (hasBreak_percent (fun b hb => ?_) _)
  unfold Disposition.isAttrByte at hb
  generalize Char.ofNat b.toNat = c at hb
  refine hasBreak_of_forall (P := fun d => (d.isAlphanum && b < 0x80 || "!#$&+-.^_\x60|~".toList.contains d) = true)
    (fun d hd => ?_) (by simp) (by simp)
  rwa [List.mem_singleton.1 hd]

theorem folded_disposition (name : List Char) : Folded (Disposition.encode name) := by
  have hinner := hasBreak_body (hasBreak_flatten name)
  have hlead : Folded "attachment; filename=\"".toList := folded_of_hasBreak (by decide)
  unfold Disposition.encode
  by_cases ha : isAscii name = true
  · rw [if_pos ha]
    exact hlead.append (folded_of_hasBreak (hasBreak_append hinner (by decide)))
  · rw [if_neg ha]
    have hparameter : hasBreak ("\"; filename*=".toList ++ Disposition.extended name) = false :=
      hasBreak_append (by decide) (hasBreak_extended name)
    exact hlead.append ((folded_encode hinner).append (folded_of_hasBreak hparameter))

end SheetPost.Mail

namespace SheetPost.Calendar.Rfc2822

open SheetPost.Text SheetPost.Mail

/-- a date is written in one line -/
theorem hasBreak_write (m : Moment) : hasBreak (write m) = false :=
  hasBreak_of_forall (List.all_eq_true.1 (all_write m)) (by decide) (by decide)

end SheetPost.Calendar.Rfc2822
