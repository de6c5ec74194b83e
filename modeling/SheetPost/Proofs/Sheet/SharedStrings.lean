/-
The table of texts: a text keeps the number that it was given, and the texts are read back in their order.

Main statements: `Sound.use` and `read?_document`.
-/
import SheetPost.Proofs.Sheet.Token
import SheetPost.Proofs.Text.Trim

namespace SheetPost.Sheet.SharedStrings

open SheetPost.Text

/-! ## Numbers of texts -/

/-- the number of a text is its place in the table -/
def Sound (t : SharedStrings) : Prop := ∀ (s : String) (n : Nat), t.numbers[s]? = some n ↔ t.texts[n]? = some s

theorem sound_empty : Sound empty := by
  intro s n
  simp [empty]

/-- the table after some more uses of texts: what was in it stays where it was -/
structure Grows (t t' : SharedStrings) (used : List String) : Prop where
  sound : Sound t'
  kept : t.texts.toList <+: t'.texts.toList
  texts : ∀ x ∈ t'.texts.toList, x ∈ t.texts.toList ∨ x ∈ used

namespace Grows

variable {t t' t'' : SharedStrings} {used used' : List String}

theorem refl (h : Sound t) (used : List String) : Grows t t used := ⟨h, List.prefix_rfl, fun _ hx => .inl hx⟩

theorem trans (h : Grows t t' used) (h' : Grows t' t'' used') : Grows t t'' (used ++ used') where
  sound := h'.sound
  kept := h.kept.trans h'.kept
  texts x hx := by
    rw [List.mem_append, ← or_assoc]
    exact (h'.texts x hx).imp_left (h.texts x)

theorem getElem? (h : Grows t t' used) {n : Nat} {s : String} (hn : t.texts[n]? = some s) : t'.texts[n]? = some s := by
  rw [← Array.getElem?_toList] at hn ⊢
  obtain ⟨l, hl⟩ := h.kept
  obtain ⟨hlt, -⟩ := List.getElem?_eq_some_iff.1 hn
  rw [← hl, List.getElem?_append_left hlt, hn]

end Grows

/-- a text that is used stands in the table under its number -/
theorem Sound.use {t : SharedStrings} (h : Sound t) (s : String) :
    Grows t (t.use s).2 [s] ∧ (t.use s).2.texts[(t.use s).1]? = some s := by
  unfold SharedStrings.use
  split
  · next n hn => exact ⟨⟨h, List.prefix_rfl, fun x hx => .inl hx⟩, (h s n).1 hn⟩
  · next hn =>
    refine ⟨⟨fun x n => ?_, ?_, fun x hx => ?_⟩, Array.getElem?_push_size⟩
    · simp only [Std.HashMap.getElem?_insert, Array.getElem?_push, beq_iff_eq]
      by_cases hx : s = x
      · subst hx
        rw [if_pos rfl]
        by_cases hsize : n = t.texts.size
        · simp [hsize]
        · -- the text had no number, so it stood nowhere
          have hnot : t.texts[n]? ≠ some s := fun hs => by
            rw [(h s n).2 hs] at hn
            cases hn
          simp [hsize, Ne.symm hsize, hnot]
      · rw [if_neg hx, h x n]
        by_cases hsize : n = t.texts.size
        · simp [hsize, hx]
        · rw [if_neg hsize]
    · rw [Array.toList_push]
      exact List.prefix_append _ _
    · rw [Array.toList_push, List.mem_append] at hx
      exact hx

/-! ## Texts as they stand in the table -/

/-- a character is escaped, or it is none that must be -/
theorem escapeText_cons (c : Char) (r : List Char) :
    ∃ front, escapeText (c :: r) = front ++ escapeText r ∧
      (front = escape c.toNat ∨ front = [c] ∧ isControl c = false) := by
  rw [escapeText]
  split
  · exact ⟨_, rfl, .inl rfl⟩
  · next hc =>
    split
    · exact ⟨_, rfl, .inl rfl⟩
    · exact ⟨[c], rfl, .inr ⟨rfl, by simpa using hc⟩⟩

theorem escapeText_ne_nil {s : List Char} (h : s ≠ []) : escapeText s ≠ [] := by
  intro hnil
  have := unescapeText_escapeText s
  rw [hnil, unescapeText_nil] at this
  exact h this.symm

/-- the first character is an underscore or the one of the text -/
theorem head?_escapeText {s : List Char} {x : Char} (h : (escapeText s).head? = some x) :
    x = '_' ∨ s.head? = some x ∧ isControl x = false := by
  cases s with
  | nil => cases h
  | cons c r =>
    obtain ⟨front, hfront, rfl | ⟨rfl, hc⟩⟩ := escapeText_cons c r
    · rw [hfront] at h
      cases h
      exact .inl rfl
    · rw [hfront] at h
      cases h
      exact .inr ⟨rfl, hc⟩

/-- the last character is an underscore or the one of the text -/
theorem getLast?_escapeText {s : List Char} {x : Char} (h : (escapeText s).getLast? = some x) :
    x = '_' ∨ s.getLast? = some x ∧ isControl x = false := by
  induction s with
  | nil => cases h
  | cons c r ih =>
    obtain ⟨front, hfront, hcases⟩ := escapeText_cons c r
    rw [hfront, List.getLast?_append, Option.or_eq_some_iff] at h
    rcases h with h | ⟨hnone, h⟩
    · refine (ih h).imp_right fun hr => ⟨?_, hr.2⟩
      rw [List.getLast?_cons, hr.1, Option.getD_some]
    · have hr : r = [] := by
        by_contra hne
        exact escapeText_ne_nil hne (List.getLast?_eq_none_iff.1 hnone)
      subst hr
      rcases hcases with rfl | ⟨rfl, hc⟩
      · cases h
        exact .inl rfl
      · cases h
        exact .inr ⟨rfl, hc⟩

/-- no blank is cut off where none must be kept -/
theorem textOf_escapeText {s : List Char} (attributes : List (List Char × List Char)) (h : keepsBlanks s = false) :
    textOf attributes (escapeText s) = escapeText s := by
  simp only [keepsBlanks, Bool.or_eq_false_iff] at h
  have hedge {x : Char} (hx : isSpace x = true) (hcontrol : isControl x = false) : isEdgeBlank x = true := by
    simp only [isSpace, Bool.or_eq_true, beq_iff_eq] at hx
    rcases hx with ((rfl | rfl) | rfl) | rfl
    · rfl
    · rfl
    · rfl
    · cases hcontrol
  have hhead {x : Char} (hx : (escapeText s).head? = some x) : isSpace x = false := by
    rw [← Bool.not_eq_true]
    intro hspace
    rcases head?_escapeText hx with rfl | ⟨hs, hcontrol⟩
    · cases hspace
    · have := h.1
      rw [hs, Option.map_some, Option.getD_some, hedge hspace hcontrol] at this
      cases this
  have hlast {x : Char} (hx : (escapeText s).getLast? = some x) : isSpace x = false := by
    rw [← Bool.not_eq_true]
    intro hspace
    rcases getLast?_escapeText hx with rfl | ⟨hs, hcontrol⟩
    · cases hspace
    · have := h.2
      rw [hs, Option.map_some, Option.getD_some, hedge hspace hcontrol] at this
      cases this
  unfold textOf
  split
  · rfl
  · exact trimWhile_eq_self (fun _ => hhead) (fun _ => hlast)

/-! ## Characters -/

/-- a text without the two characters that XML has no place for and that are not escaped -/
def Writable (s : List Char) : Prop := ∀ c ∈ s, c.toNat ≠ 0xFFFE ∧ c.toNat ≠ 0xFFFF

instance (s : List Char) : Decidable (Writable s) :=
  List.decidableBAll (fun c : Char => c.toNat ≠ 0xFFFE ∧ c.toNat ≠ 0xFFFF) s

theorem isChar_escapeText {s : List Char} (h : Writable s) : ∀ c ∈ escapeText s, Token.isChar c = true := by
  induction s with
  | nil => exact List.forall_mem_nil _
  | cons c r ih =>
    obtain ⟨hc, hr⟩ := List.forall_mem_cons.1 h
    obtain ⟨front, hfront, hcases⟩ := escapeText_cons c r
    rw [hfront, List.forall_mem_append]
    refine ⟨?_, ih hr⟩
    rcases hcases with rfl | ⟨rfl, hcontrol⟩
    · have hdigit (n : Nat) : Token.isChar (hexDigit (n % 16)) = true := by
        have : ∀ m : Fin 16, Token.isChar (hexDigit m.val) = true := by decide
        exact this ⟨n % 16, Nat.mod_lt n (by decide)⟩
      simp only [escape, List.forall_mem_cons]
      exact ⟨by decide, by decide, hdigit _, hdigit _, hdigit _, hdigit _, by decide, List.forall_mem_nil _⟩
    · rw [List.forall_mem_singleton, Token.isChar]
      simp only [isControl, Bool.and_eq_false_iff, decide_eq_false_iff_not, bne_eq_false_iff_eq] at hcontrol
      rcases hcontrol with (hlt | rfl) | rfl
      · simp [hc.1, hc.2, Nat.le_of_not_lt hlt]
      · rfl
      · rfl

/-! ## Reading the table -/

/-- a text that stands in the table as text -/
structure Plain (s : String) : Prop where
  ne_empty : s ≠ ""
  notRuns : isRuns s.toList = false
  writable : Writable s.toList

/-- the attributes of the text of an item -/
def itemAttributes (s : String) : List (String × String) :=
  if keepsBlanks s.toList then [("xml:space", "preserve")] else []

theorem item_eq {s : String} (h : isRuns s.toList = false) :
    item s = .element "si" [] [.element "t" (itemAttributes s) [.text (escapeText s.toList)]] := by
  simp [item, h, itemAttributes]

theorem tidy_item {s : String} (h : Plain s) : Token.Tidy (item s) := by
  rw [item_eq h.notRuns]
  refine .element (by decide) ?_
  rw [List.forall_mem_singleton]
  refine .word ?_ (escapeText_ne_nil (by simpa using h.ne_empty)) (isChar_escapeText h.writable)
  unfold itemAttributes
  split <;> decide

/-- **An item is read back as its text** -/
theorem readItems_item {s : String} (h : Plain s) (r : List Token) :
    readItems none none ((item s).tokens ++ r) = s.toList :: readItems none none r := by
  have htext : unescapeText (textOf (Xml.plainAttributes (itemAttributes s)) (escapeText s.toList)) = s.toList := by
    have hkept : textOf (Xml.plainAttributes (itemAttributes s)) (escapeText s.toList) = escapeText s.toList := by
      cases hk : keepsBlanks s.toList with
      | true =>
        rw [itemAttributes, if_pos hk, textOf, if_pos (by decide)]
      | false => exact textOf_escapeText _ hk
    rw [hkept, unescapeText_escapeText]
  rw [item_eq h.notRuns]
  simp [Xml.tokens, Xml.allTokens, readItems, htext]

theorem readItems_items {texts : List String} (h : ∀ s ∈ texts, Plain s) (r : List Token) :
    readItems none none (Xml.allTokens (texts.map item) ++ r) = texts.map String.toList ++ readItems none none r := by
  induction texts with
  | nil => rfl
  | cons s texts ih =>
    rw [List.map_cons, Xml.allTokens, List.append_assoc, readItems_item (h s List.mem_cons_self),
      ih fun x hx => h x (List.mem_cons_of_mem _ hx)]
    rfl

/-- digits may stand in the value of an attribute -/
theorem isValueChar_of_isDigit {c : Char} (h : c.isDigit = true) : Token.isValueChar c = true := by
  have hall : ∀ m : Fin 10, Token.isValueChar (Char.ofNat (48 + m.val)) = true := by decide
  rw [isDigit_iff] at h
  have := hall ⟨c.toNat - 48, by omega⟩
  rwa [show 48 + (c.toNat - 48) = c.toNat by omega, Char.ofNat_toNat] at this

theorem isValueChar_toString (n : Nat) : (toString n).toList.all Token.isValueChar = true := by
  have hdecimal : (toString n).toList = decimal n := by simp [Nat.repr, toString, decimal]
  rw [hdecimal, List.all_eq_true]
  exact fun c hc => isValueChar_of_isDigit ((isDigit_of_readDigits? (readDigits?_decimal n)).2 c hc)

theorem isTidyTag_table (uses size : Nat) : Token.isTidyTag "sst"
    [("xmlns", mainNamespace), ("count", toString uses), ("uniqueCount", toString size)] = true := by
  simp only [Token.isTidyTag, List.all_cons, isValueChar_toString]
  decide

/-- **The texts of the table are read back in their order** -/
theorem read?_document {t : SharedStrings} (h : ∀ s ∈ t.texts.toList, Plain s) :
    read? (Xml.document t.xml) = some (t.texts.toList.map String.toList) := by
  have htidy : Token.Tidy t.xml := by
    refine .element (isTidyTag_table _ _) fun x hx => ?_
    obtain ⟨s, hs, rfl⟩ := List.mem_map.1 hx
    exact tidy_item (h s hs)
  rw [read?, htidy.readDocument?_document, Option.map_some, xml]
  cases hl : t.texts.toList with
  | nil => rfl
  | cons s texts =>
    rw [hl] at h
    rw [List.map_cons, Token.tokens_element, ← List.map_cons]
    have hitems := readItems_items h [.closing "sst".toList]
    simp only [readItems]
    rw [if_neg (by decide), if_neg (by decide), hitems]
    simp [readItems]

/-! ## Characters that spoil the table -/

theorem mem_escapeText {s : List Char} {c : Char} (hc : c ∈ s) (hcontrol : isControl c = false) (hunderscore : c ≠ '_') :
    c ∈ escapeText s := by
  induction s with
  | nil => cases hc
  | cons d r ih =>
    rw [escapeText]
    rcases List.mem_cons.1 hc with rfl | hc
    · rw [if_neg (by rw [hcontrol]; exact Bool.false_ne_true),
        if_neg fun h => hunderscore (eq_underscore_of_looksEscaped h)]
      exact List.mem_cons_self
    · split
      · exact List.mem_append_right _ (ih hc)
      · split
        · exact List.mem_append_right _ (ih hc)
        · exact List.mem_cons_of_mem _ (ih hc)

/-- a character without an entity is written as it is, in markup and in text -/
theorem mem_write_item {s : String} {c : Char} (hc : c ∈ escapeText s.toList) (hescape : Xml.escape c = [c]) :
    c ∈ (item s).write := by
  have hmem : c ∈ (escapeText s.toList).flatMap Xml.escape :=
    List.mem_flatMap.2 ⟨c, hc, by rw [hescape]; exact List.mem_singleton_self c⟩
  unfold item
  split
  · simp [Xml.write, Xml.writeAll, hc]
  · simp only [Xml.write, Xml.writeAll, List.append_nil, List.mem_append, List.mem_cons, hmem, true_or, or_true]

/-- the table is written with the items in front of one, that item, and the others -/
theorem write_xml {t : SharedStrings} {front back : List String} {s : String} (h : t.texts.toList = front ++ s :: back) :
    t.xml.write =
      '<' :: (("sst".toList ++ Xml.writeAttributes [("xmlns", mainNamespace), ("count", toString t.uses),
        ("uniqueCount", toString t.texts.size)]) ++ '>' :: Xml.writeAll (front.map item)) ++
      ((item s).write ++ (Xml.writeAll (back.map item) ++ "</sst>".toList)) := by
  obtain ⟨x, items, hx⟩ := List.exists_cons_of_ne_nil (by simp : (front ++ s :: back).map item ≠ [])
  rw [xml, h, hx, Token.write_element, ← hx, List.map_append, List.map_cons, Xml.writeAll_append, Xml.writeAll]
  simp

theorem mem_write_xml {t : SharedStrings} {s : String} (hs : s ∈ t.texts.toList) {c : Char} (hc : c ∈ (item s).write) :
    c ∈ t.xml.write := by
  obtain ⟨front, back, hsplit⟩ := List.append_of_mem hs
  rw [write_xml hsplit]
  exact List.mem_append_right _ (List.mem_append_left _ hc)

/-- **Only a table of writable texts is read at all** -/
theorem writable_of_read? {t : SharedStrings} {texts : List (List Char)} (h : read? (Xml.document t.xml) = some texts) :
    ∀ s ∈ t.texts.toList, Writable s.toList := by
  obtain ⟨ts, hdocument, -⟩ := Option.map_eq_some_iff.1 h
  have hchars := (Token.of_readDocument?_document hdocument).1
  intro s hs c hc
  rw [← not_or]
  intro hbad
  have hne {d : Char} (hd : d.toNat < 0xFFFE) : c ≠ d := by
    rintro rfl
    omega
  have hcontrol : isControl c = false := by
    simp only [isControl, Bool.and_eq_false_iff, decide_eq_false_iff_not]
    exact .inl (.inl (by omega))
  have hescape : Xml.escape c = [c] := by
    unfold Xml.escape
    split
    · exact absurd rfl (hne (by decide))
    · exact absurd rfl (hne (by decide))
    · exact absurd rfl (hne (by decide))
    · rfl
  have hchar := hchars c (mem_write_xml hs (mem_write_item (mem_escapeText hc hcontrol (hne (by decide))) hescape))
  simp only [Token.isChar, Bool.or_eq_true, Bool.and_eq_true, beq_iff_eq, bne_iff_ne] at hchar
  rcases hchar with ((hc | hc) | hc) | hc
  · exact hne (by decide) hc
  · exact hne (by decide) hc
  · exact hne (by decide) hc
  · omega

end SheetPost.Sheet.SharedStrings
