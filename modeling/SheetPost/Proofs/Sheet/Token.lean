/-
XML that was written and is read back. A document falls into tags and texts at the end of every tag, so what was written
one after the other is read one after the other.

Main statements: `readAll?_append`, and that the document of a tidy tree is read back as the tokens of the tree
(`Tidy.readDocument?_document`).
-/
import SheetPost.Proofs.Sheet.Escape
import SheetPost.Proofs.Text.Search

namespace SheetPost.Sheet

open SheetPost.Text

namespace Xml

theorem writeAll_append (xs ys : List Xml) : writeAll (xs ++ ys) = writeAll xs ++ writeAll ys := by
  induction xs with
  | nil => rfl
  | cons x xs ih => rw [List.cons_append, writeAll, writeAll, ih, List.append_assoc]

theorem allTokens_append (xs ys : List Xml) : allTokens (xs ++ ys) = allTokens xs ++ allTokens ys := by
  induction xs with
  | nil => rfl
  | cons x xs ih => rw [List.cons_append, allTokens, allTokens, ih, List.append_assoc]

end Xml

namespace Token

/-! ## One tag, one text -/

/-- empty, or at the end of a tag -/
def Closed (s : List Char) : Prop := ∀ c, s.getLast? = some c → c = '>'

/-- empty, or at the beginning of a tag -/
def Opens (s : List Char) : Prop := ∀ c, s.head? = some c → c = '<'

theorem Closed.of_append {a b : List Char} (h : Closed (a ++ b)) : Closed b := by
  intro c hc
  exact h c (by rw [List.getLast?_append, hc, Option.some_or])

theorem Closed.append {a b : List Char} (ha : Closed a) (hb : Closed b) : Closed (a ++ b) := by
  intro c hc
  rw [List.getLast?_append, Option.or_eq_some_iff] at hc
  rcases hc with hc | ⟨-, hc⟩
  · exact hb c hc
  · exact ha c hc

theorem Opens.append {a b : List Char} (ha : Opens a) (hb : Opens b) : Opens (a ++ b) := by
  intro c hc
  rw [List.head?_append, Option.or_eq_some_iff] at hc
  rcases hc with hc | ⟨-, hc⟩
  · exact ha c hc
  · exact hb c hc

@[simp] theorem readAll?_nil : readAll? [] = some [] := by rw [readAll?]

theorem readAll?_tag {tag : List Char} (htag : '>' ∉ tag) (rest : List Char) :
    readAll? ('<' :: (tag ++ '>' :: rest)) =
      (readTag? tag).bind fun t => (readAll? rest).map (t :: ·) := by
  rw [readAll?, cutAt_append htag]
  simp only [List.length_append, List.length_cons]
  rw [if_pos (by omega)]
  cases readTag? tag with
  | none => rfl
  | some t => cases readAll? rest <;> rfl

theorem readAll?_unclosed {r : List Char} (h : '>' ∉ r) : readAll? ('<' :: r) = none := by
  rw [readAll?, cutAt_eq_none_iff.2 h]

theorem readAll?_text {c : Char} (hc : c ≠ '<') {u v : List Char} (hu : '<' ∉ u) (hv : Opens v) :
    readAll? (c :: (u ++ v)) =
      (resolve? (c :: u)).bind fun t => (readAll? v).map (.text t :: ·) := by
  have hall : ∀ x ∈ u, (x != '<') = true := fun x hx => by simpa using fun e : x = '<' => hu (e ▸ hx)
  have hend : v.takeWhile (· != '<') = [] ∧ v.dropWhile (· != '<') = v := by
    cases v with
    | nil => exact ⟨rfl, rfl⟩
    | cons y v =>
      cases hv y rfl
      exact ⟨rfl, rfl⟩
  rw [readAll?]
  · rw [List.takeWhile_append_of_pos hall, List.dropWhile_append_of_pos hall, hend.1, hend.2, List.append_nil]
    cases resolve? (c :: u) with
    | none => rfl
    | some t => cases readAll? v <;> rfl
  · rintro rfl
    exact hc rfl

/-- a text goes on to the next tag -/
theorem exists_text (s : List Char) : ∃ u v, s = u ++ v ∧ '<' ∉ u ∧ Opens v := by
  refine ⟨s.takeWhile (· != '<'), s.dropWhile (· != '<'), List.takeWhile_append_dropWhile.symm, ?_, ?_⟩
  · intro h
    have := List.mem_takeWhile_imp h
    simp at this
  · intro c hc
    have := List.head?_dropWhile_not (· != '<') s
    rw [hc] at this
    simpa using this

/-- **What is read behind the end of a tag is read by itself** -/
theorem readAll?_append {a b : List Char} (ha : Closed a) (hb : Opens b) :
    readAll? (a ++ b) = (readAll? a).bind fun ts => (readAll? b).map (ts ++ ·) := by
  induction hn : a.length using Nat.strongRecOn generalizing a with
  | _ n ih =>
    subst hn
    cases a with
    | nil => simp
    | cons c r =>
      by_cases hc : c = '<'
      · subst hc
        cases hr : cutAt '>' r with
        | none =>
          -- there is a tag to be ended, and the text ends with the end of one
          exfalso
          refine cutAt_eq_none_iff.1 hr ?_
          cases hlast : r.getLast? with
          | none =>
            rw [List.getLast?_eq_none_iff.1 hlast] at ha
            cases ha '<' rfl
          | some d =>
            cases Closed.of_append (a := ['<']) ha d hlast
            exact List.mem_of_getLast? hlast
        | some p =>
          obtain ⟨hp, htag⟩ := cutAt_eq_some (a := p.1) (b := p.2) hr
          subst hp
          have hclosed : Closed p.2 := Closed.of_append (a := '<' :: (p.1 ++ ['>'])) (by simpa using ha)
          have hread := ih p.2.length (by simp only [List.length_cons, List.length_append]; omega) hclosed rfl
          rw [List.cons_append, List.append_assoc, List.cons_append, readAll?_tag htag, readAll?_tag htag, hread]
          cases readTag? p.1 with
          | none => rfl
          | some t =>
            cases readAll? p.2 with
            | none => rfl
            | some ts => cases readAll? b <;> rfl
      · obtain ⟨u, v, rfl, hu, hv⟩ := exists_text r
        have hclosed : Closed v := Closed.of_append (a := c :: u) ha
        have hread := ih v.length (by simp only [List.length_cons, List.length_append]; omega) hclosed rfl
        rw [List.cons_append, List.append_assoc, readAll?_text hc hu (hv.append hb), readAll?_text hc hu hv, hread]
        cases resolve? (c :: u) with
        | none => rfl
        | some t =>
          cases readAll? v with
          | none => rfl
          | some ts => cases readAll? b <;> rfl

theorem exists_of_readAll?_append {a b : List Char} (ha : Closed a) (hb : Opens b) {ts : List Token}
    (h : readAll? (a ++ b) = some ts) : ∃ ts1 ts2, readAll? a = some ts1 ∧ readAll? b = some ts2 ∧ ts = ts1 ++ ts2 := by
  rw [readAll?_append ha hb] at h
  obtain ⟨ts1, h1, h⟩ := Option.bind_eq_some_iff.1 h
  obtain ⟨ts2, h2, rfl⟩ := Option.map_eq_some_iff.1 h
  exact ⟨ts1, ts2, h1, h2, rfl⟩

/-! ## Tags -/

/-- a character of a name -/
def isNameChar (c : Char) : Bool := isChar c && !(['<', '>', '/', '=', '"', ' '].contains c)

/-- a character of an attribute's value -/
def isValueChar (c : Char) : Bool := isChar c && !(['<', '>', '"'].contains c)

/-- name and attributes are of the characters that may stand in them, and there is a name -/
def isTidyTag (name : String) (attributes : List (String × String)) : Bool :=
  !name.toList.isEmpty && name.toList.all isNameChar &&
    attributes.all fun a => a.1.toList.all isNameChar && a.2.toList.all isValueChar

theorem not_mem_of_all {p : Char → Bool} {s : List Char} (h : s.all p = true) {x : Char} (hx : p x = false) : x ∉ s := by
  intro hmem
  rw [List.all_eq_true.1 h x hmem] at hx
  cases hx

section Tag

variable {name : String} {attributes : List (String × String)}

theorem readAttributes?_write (h : ∀ a ∈ attributes, a.1.toList.all isNameChar = true ∧ a.2.toList.all isValueChar = true) :
    readAttributes? (Xml.writeAttributes attributes) = some (Xml.plainAttributes attributes) := by
  induction attributes with
  | nil => rw [Xml.writeAttributes, List.flatMap_nil, readAttributes?]; rfl
  | cons a attributes ih =>
    obtain ⟨hname, hvalue⟩ := h a List.mem_cons_self
    have hrest := ih fun b hb => h b (List.mem_cons_of_mem _ hb)
    have hequals : ¬ ['=', '"'] <:+: a.1.toList := fun hi => not_mem_of_all (x := '=') hname rfl (hi.subset (by simp))
    have hquote : '"' ∉ a.2.toList := not_mem_of_all hvalue rfl
    have hwrite : Xml.writeAttributes (a :: attributes) =
        ' ' :: (a.1.toList ++ (['=', '"'] ++ (a.2.toList ++ '"' :: Xml.writeAttributes attributes))) := by
      simp [Xml.writeAttributes]
    rw [hwrite, readAttributes?]
    simp only [bne_self_eq_false, Bool.false_eq_true, if_false, cutAtText_append (by decide) hequals,
      cutAt_append hquote, hrest]
    rw [if_pos (by simp only [List.length_append, List.length_cons]; omega)]
    rfl

theorem readHead?_write (h : isTidyTag name attributes = true) :
    readHead? (name.toList ++ Xml.writeAttributes attributes) = some (name.toList, Xml.plainAttributes attributes) := by
  simp only [isTidyTag, Bool.and_eq_true, List.all_eq_true] at h
  obtain ⟨⟨-, hname⟩, hattributes⟩ := h
  have hall : ∀ c ∈ name.toList, (c != ' ') = true := by
    intro c hc
    have := hname c hc
    rw [bne_iff_ne]
    rintro rfl
    cases this
  have hend : (Xml.writeAttributes attributes).takeWhile (· != ' ') = [] ∧
      (Xml.writeAttributes attributes).dropWhile (· != ' ') = Xml.writeAttributes attributes := by
    cases attributes <;> exact ⟨rfl, rfl⟩
  rw [readHead?, List.takeWhile_append_of_pos hall, List.dropWhile_append_of_pos hall, hend.1, hend.2, List.append_nil,
    readAttributes?_write fun a ha => by simpa using hattributes a ha]
  rfl

/-- what a tag is made of -/
theorem of_mem_tag (h : isTidyTag name attributes = true) {c : Char}
    (hc : c ∈ name.toList ++ Xml.writeAttributes attributes) : c ≠ '>' ∧ isChar c = true := by
  have hnamed (hc : isNameChar c = true) : c ≠ '>' ∧ isChar c = true := by
    simp only [isNameChar, Bool.and_eq_true] at hc
    refine ⟨?_, hc.1⟩
    rintro rfl
    cases hc.2
  have hvalued (hc : isValueChar c = true) : c ≠ '>' ∧ isChar c = true := by
    simp only [isValueChar, Bool.and_eq_true] at hc
    refine ⟨?_, hc.1⟩
    rintro rfl
    cases hc.2
  simp only [isTidyTag, Bool.and_eq_true, List.all_eq_true] at h
  obtain ⟨⟨-, hname⟩, hattributes⟩ := h
  rcases List.mem_append.1 hc with hc | hc
  · exact hnamed (hname c hc)
  · obtain ⟨a, ha, hc⟩ := List.mem_flatMap.1 hc
    simp only [List.mem_cons, List.mem_append, List.not_mem_nil, or_false] at hc
    rcases hc with rfl | hc | rfl | rfl | hc | rfl
    · decide
    · exact hnamed ((hattributes a ha).1 c hc)
    · decide
    · decide
    · exact hvalued ((hattributes a ha).2 c hc)
    · decide

theorem getLast?_writeAttributes (attributes : List (String × String)) (c : Char)
    (hc : (Xml.writeAttributes attributes).getLast? = some c) : c = '"' := by
  induction attributes with
  | nil => cases hc
  | cons a attributes ih =>
    rw [Xml.writeAttributes, List.flatMap_cons, List.getLast?_append, Option.or_eq_some_iff] at hc
    rcases hc with hc | ⟨-, hc⟩
    · exact ih hc
    · have hquote : ' ' :: (a.1.toList ++ '=' :: '"' :: (a.2.toList ++ ['"'])) =
          (' ' :: (a.1.toList ++ '=' :: '"' :: a.2.toList)) ++ ['"'] := by simp
      have hlast : (' ' :: (a.1.toList ++ '=' :: '"' :: (a.2.toList ++ ['"']))).getLast? = some c := hc
      rw [hquote, List.getLast?_concat] at hlast
      cases hlast
      rfl

/-- the slash is neither at the front nor at the end -/
theorem tag_ends (h : isTidyTag name attributes = true) :
    (∃ c r, name.toList ++ Xml.writeAttributes attributes = c :: r ∧ c ≠ '/') ∧
      (name.toList ++ Xml.writeAttributes attributes).getLast? ≠ some '/' := by
  simp only [isTidyTag, Bool.and_eq_true, List.all_eq_true] at h
  obtain ⟨⟨hne, hname⟩, -⟩ := h
  have hslash {c : Char} (hc : c ∈ name.toList) : c ≠ '/' := by
    have := hname c hc
    rintro rfl
    cases this
  constructor
  · cases hl : name.toList with
    | nil =>
      rw [hl] at hne
      cases hne
    | cons c r => exact ⟨c, r ++ Xml.writeAttributes attributes, rfl, hslash (by rw [hl]; exact List.mem_cons_self)⟩
  · intro hlast
    rw [List.getLast?_append, Option.or_eq_some_iff] at hlast
    rcases hlast with hlast | ⟨-, hlast⟩
    · cases getLast?_writeAttributes attributes _ hlast
    · exact hslash (List.mem_of_getLast? hlast) rfl

theorem readTag?_opening (h : isTidyTag name attributes = true) :
    readTag? (name.toList ++ Xml.writeAttributes attributes) =
      some (.opening name.toList (Xml.plainAttributes attributes)) := by
  obtain ⟨⟨c, r, hcr, hc⟩, hlast⟩ := tag_ends h
  unfold readTag?
  split
  · next hs =>
    rw [hs] at hcr
    cases hcr
    exact absurd rfl hc
  · rw [if_neg hlast, readHead?_write h]
    rfl

theorem readTag?_empty (h : isTidyTag name attributes = true) :
    readTag? (name.toList ++ Xml.writeAttributes attributes ++ ['/']) =
      some (.empty name.toList (Xml.plainAttributes attributes)) := by
  obtain ⟨⟨c, r, hcr, hc⟩, -⟩ := tag_ends h
  unfold readTag?
  split
  · next hs =>
    rw [hcr] at hs
    cases hs
    exact absurd rfl hc
  · rw [if_pos List.getLast?_concat, List.dropLast_concat, readHead?_write h]
    rfl

end Tag

/-! ## Trees -/

/-- trees whose tags are well made and whose texts stand alone in their elements -/
inductive Tidy : Xml → Prop where
  | word {name attributes s} : isTidyTag name attributes = true → s ≠ [] → (∀ c ∈ s, isChar c = true) →
    Tidy (.element name attributes [.text s])
  | element {name attributes content} : isTidyTag name attributes = true → (∀ x ∈ content, Tidy x) →
    Tidy (.element name attributes content)

/-- what is written is read back, and other tags may stand around it -/
structure ReadsAs (s : List Char) (tokens : List Token) : Prop where
  closed : Closed s
  opens : Opens s
  read : readAll? s = some tokens

theorem ReadsAs.append {s s' : List Char} {ts ts' : List Token} (h : ReadsAs s ts) (h' : ReadsAs s' ts') :
    ReadsAs (s ++ s') (ts ++ ts') where
  closed := h.closed.append h'.closed
  opens := h.opens.append h'.opens
  read := by
    rw [readAll?_append h.closed h'.opens, h.read, h'.read]
    rfl

theorem readsAs_nil : ReadsAs [] [] := ⟨fun _ h => (by cases h), fun _ h => (by cases h), readAll?_nil⟩

/-- a tag in front -/
theorem ReadsAs.of_tag {tag s : List Char} {t : Token} {ts : List Token} (htag : '>' ∉ tag)
    (ht : readTag? tag = some t) (hclosed : Closed s) (hs : readAll? s = some ts) :
    ReadsAs ('<' :: (tag ++ '>' :: s)) (t :: ts) where
  closed := by
    have hend : Closed (('<' :: tag) ++ ['>']) := fun c hc => by
      rw [List.getLast?_concat] at hc
      exact (Option.some.inj hc).symm
    have := hend.append hclosed
    rwa [List.append_assoc, List.singleton_append, List.cons_append] at this
  opens c hc := by
    cases hc
    rfl
  read := by
    rw [readAll?_tag htag, ht, hs]
    rfl

theorem readsAs_closing {name : List Char} (hname : '>' ∉ name) :
    ReadsAs ('<' :: '/' :: (name ++ ['>'])) [.closing name] := by
  have hslash : '>' ∉ '/' :: name := by
    rw [List.mem_cons, not_or]
    exact ⟨by decide, hname⟩
  exact .of_tag hslash rfl readsAs_nil.closed readsAs_nil.read

/-- a text in front of a tag -/
theorem readAll?_text_append {s : List Char} (hs : s ≠ []) {rest : List Char} {ts : List Token}
    (hrest : ReadsAs rest ts) : readAll? (s.flatMap Xml.escape ++ rest) = some (.text s :: ts) := by
  have hopen : '<' ∉ s.flatMap Xml.escape := by
    intro hmem
    obtain ⟨c, -, hc⟩ := List.mem_flatMap.1 hmem
    unfold Xml.escape at hc
    split at hc
    · simp at hc
    · simp at hc
    · simp at hc
    · next hne _ => exact hne (List.mem_singleton.1 hc).symm
  have hresolve := SharedStrings.resolve?_escape s
  have hne : s.flatMap Xml.escape ≠ [] := by
    intro hnil
    rw [hnil, resolve?] at hresolve
    exact hs (Option.some.inj hresolve).symm
  obtain ⟨c, r, hcr⟩ := List.exists_cons_of_ne_nil hne
  rw [hcr] at hopen hresolve ⊢
  obtain ⟨hc, hr⟩ := not_or.1 (mt List.mem_cons.2 hopen)
  rw [List.cons_append, readAll?_text (fun e => hc e.symm) hr hrest.opens, hresolve, hrest.read]
  rfl

theorem readsAs_writeAll {xs : List Xml} (h : ∀ x ∈ xs, ReadsAs x.write x.tokens) :
    ReadsAs (Xml.writeAll xs) (Xml.allTokens xs) := by
  induction xs with
  | nil => exact readsAs_nil
  | cons x xs ih =>
    exact (h x List.mem_cons_self).append (ih fun y hy => h y (List.mem_cons_of_mem _ hy))

section Element

variable {name : String} {attributes : List (String × String)}

theorem write_element (x : Xml) (content : List Xml) : (Xml.element name attributes (x :: content)).write =
    '<' :: ((name.toList ++ Xml.writeAttributes attributes) ++ '>' ::
      (Xml.writeAll (x :: content) ++ '<' :: '/' :: (name.toList ++ ['>']))) := by
  rw [Xml.write, List.append_assoc]
  simp

theorem tokens_element (x : Xml) (content : List Xml) : (Xml.element name attributes (x :: content)).tokens =
    .opening name.toList (Xml.plainAttributes attributes) ::
      (Xml.allTokens (x :: content) ++ [.closing name.toList]) := by
  rw [Xml.tokens]
  simp

/-- an element is read back if its content is, up to the closing tag -/
theorem readsAs_element (htag : isTidyTag name attributes = true) (x : Xml) (content : List Xml)
    (hread : ∀ {rest ts}, ReadsAs rest ts → readAll? (Xml.writeAll (x :: content) ++ rest) =
      some (Xml.allTokens (x :: content) ++ ts)) :
    ReadsAs (Xml.element name attributes (x :: content)).write (Xml.element name attributes (x :: content)).tokens := by
  have hnot : '>' ∉ name.toList ++ Xml.writeAttributes attributes := fun h => (of_mem_tag htag h).1 rfl
  have hname : '>' ∉ name.toList := fun h => hnot (List.mem_append_left _ h)
  have hclosing := readsAs_closing hname
  rw [write_element, tokens_element]
  refine .of_tag hnot (readTag?_opening htag) ?_ (hread hclosing)
  intro c hc
  rw [List.getLast?_append_of_ne_nil _ (List.cons_ne_nil _ _)] at hc
  exact hclosing.closed c hc

end Element

/-- **A tidy tree is read back as its tokens** -/
theorem Tidy.readsAs {x : Xml} (h : Tidy x) : ReadsAs x.write x.tokens := by
  induction h with
  | word htag hs _ =>
    refine readsAs_element htag _ _ fun hrest => ?_
    simpa [Xml.writeAll, Xml.allTokens, Xml.write, Xml.tokens] using readAll?_text_append hs hrest
  | @element name attributes content htag _ ih =>
    cases content with
    | nil =>
      have hnot : '>' ∉ name.toList ++ Xml.writeAttributes attributes ++ ['/'] := by
        intro hmem
        rcases List.mem_append.1 hmem with hmem | hmem
        · exact (of_mem_tag htag hmem).1 rfl
        · cases List.mem_singleton.1 hmem
      have := ReadsAs.of_tag hnot (readTag?_empty htag) readsAs_nil.closed readsAs_nil.read
      simpa [Xml.write, Xml.tokens] using this
    | cons x content =>
      refine readsAs_element htag x content fun hrest => ?_
      exact ((readsAs_writeAll ih).append hrest).read

/-! ## Characters -/

/-- what a document that is read consists of -/
theorem of_readDocument?_document {x : Xml} {ts : List Token} (h : readDocument? (Xml.document x) = some ts) :
    (∀ c ∈ x.write, isChar c = true) ∧ readAll? x.write = some ts := by
  unfold readDocument? at h
  split at h
  · next hall =>
    rw [Xml.document, after?_append, Option.bind_some] at h
    refine ⟨fun c hc => List.all_eq_true.1 hall c ?_, h⟩
    exact List.mem_append_right _ hc
  · cases h

theorem isChar_write_element {name : String} {attributes : List (String × String)}
    (htag : isTidyTag name attributes = true) {content : List Xml}
    (hcontent : ∀ c ∈ Xml.writeAll content, isChar c = true) :
    ∀ c ∈ (Xml.element name attributes content).write, isChar c = true := by
  have hname : ∀ c ∈ name.toList, isChar c = true := fun c hc => (of_mem_tag htag (List.mem_append_left _ hc)).2
  have hattributes : ∀ c ∈ Xml.writeAttributes attributes, isChar c = true :=
    fun c hc => (of_mem_tag htag (List.mem_append_right _ hc)).2
  have hsign : isChar '<' = true ∧ isChar '>' = true ∧ isChar '/' = true := by decide
  cases content with
  | nil =>
    rw [Xml.write]
    simp only [List.forall_mem_cons, List.forall_mem_append]
    exact ⟨hsign.1, hname, hattributes, hsign.2.2, hsign.2.1, List.forall_mem_nil _⟩
  | cons x content =>
    rw [write_element]
    simp only [List.forall_mem_cons, List.forall_mem_append]
    exact ⟨hsign.1, ⟨hname, hattributes⟩, hsign.2.1, hcontent, hsign.1, hsign.2.2, hname, hsign.2.1,
      List.forall_mem_nil _⟩

theorem isChar_of_mem_escape {s : List Char} (hs : ∀ c ∈ s, isChar c = true) :
    ∀ c ∈ s.flatMap Xml.escape, isChar c = true := by
  intro c hc
  obtain ⟨d, hd, hc⟩ := List.mem_flatMap.1 hc
  unfold Xml.escape at hc
  split at hc
  · exact List.all_eq_true.1 (by decide : ['&', 'a', 'm', 'p', ';'].all isChar = true) c hc
  · exact List.all_eq_true.1 (by decide : ['&', 'l', 't', ';'].all isChar = true) c hc
  · exact List.all_eq_true.1 (by decide : ['&', 'g', 't', ';'].all isChar = true) c hc
  · exact List.mem_singleton.1 hc ▸ hs d hd

theorem isChar_writeAll {xs : List Xml} (h : ∀ x ∈ xs, ∀ c ∈ x.write, isChar c = true) :
    ∀ c ∈ Xml.writeAll xs, isChar c = true := by
  induction xs with
  | nil => exact List.forall_mem_nil _
  | cons x xs ih =>
    rw [Xml.writeAll, List.forall_mem_append]
    exact ⟨h x List.mem_cons_self, ih fun y hy => h y (List.mem_cons_of_mem _ hy)⟩

theorem Tidy.isChar {x : Xml} (h : Tidy x) : ∀ c ∈ x.write, Token.isChar c = true := by
  induction h with
  | word htag _ hs =>
    refine isChar_write_element htag ?_
    simp only [Xml.writeAll, Xml.write, List.append_nil]
    exact isChar_of_mem_escape hs
  | element htag _ ih => exact isChar_write_element htag (isChar_writeAll ih)

/-- **A document of a tidy tree is read back as the tokens of the tree** -/
theorem Tidy.readDocument?_document {x : Xml} (h : Tidy x) : readDocument? (Xml.document x) = some x.tokens := by
  have hall : (Xml.document x).all Token.isChar = true := by
    rw [List.all_eq_true]
    intro c hc
    rcases List.mem_append.1 hc with hc | hc
    · exact List.all_eq_true.1 (by decide +kernel : Xml.declaration.all Token.isChar = true) c hc
    · exact h.isChar c hc
  rw [readDocument?, if_pos hall, Xml.document, after?_append, Option.bind_some, h.readsAs.read]

end Token

end SheetPost.Sheet
