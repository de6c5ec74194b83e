/-
Markup of formatted runs in the table of texts. It goes in as it is, so a reader takes its tags for tags, and what is
left of the text is shorter than the text was.

Main statement: `exists_of_read?_runs`.
-/
import SheetPost.Proofs.Sheet.SharedStrings

namespace SheetPost.Sheet.SharedStrings

open SheetPost.Text

/-! ## The length of what is read -/

/-- the length of the texts among tokens with their escapes resolved -/
def weight : List Token → Nat
  | [] => 0
  | .text s :: r => (unescapeText s).length + weight r
  | _ :: r => weight r

theorem apart_of_isSpace {c : Char} (h : isSpace c = true) : Apart c := by
  simp only [isSpace, Bool.or_eq_true, beq_iff_eq] at h
  rcases h with ((rfl | rfl) | rfl) | rfl
  all_goals exact ⟨by decide, by decide, by decide⟩

/-- blanks that are cut off do not make a text longer -/
theorem length_unescapeText_textOf_le (attributes : List (List Char × List Char)) (s : List Char) :
    (unescapeText (textOf attributes s)).length ≤ (unescapeText s).length := by
  unfold textOf
  split
  · exact Nat.le_refl _
  · obtain ⟨a, b, hs, ha, hb⟩ := exists_trimWhile isSpace s
    generalize trimWhile isSpace s = t at hs ⊢
    subst hs
    have hback : (unescapeText t).length ≤ (unescapeText (t ++ b)).length := by
      cases b with
      | nil => rw [List.append_nil]
      | cons x b =>
        rw [unescapeText_append_cons (apart_of_isSpace (hb x List.mem_cons_self)), List.length_append]
        omega
    induction a with
    | nil => exact hback
    | cons x a ih =>
      have hx := apart_of_isSpace (ha x List.mem_cons_self)
      rw [List.cons_append, unescapeText_cons hx.underscore, List.length_cons]
      exact (ih fun c hc => ha c (List.mem_cons_of_mem _ hc)).trans (Nat.le_succ _)

/-- a tag is no text -/
theorem weight_cons_of_readTag? {tag : List Char} {t : Token} (h : Token.readTag? tag = some t) (ts : List Token) :
    weight (t :: ts) = weight ts := by
  unfold Token.readTag? at h
  split at h
  · cases h
    rfl
  · split at h
    · obtain ⟨p, -, rfl⟩ := Option.map_eq_some_iff.1 h
      rfl
    · obtain ⟨p, -, rfl⟩ := Option.map_eq_some_iff.1 h
      rfl

/-- the signs of a tag are not among the texts that are read -/
theorem weight_tag_lt {r : List Char} {ts : List Token} (h : Token.readAll? ('<' :: r) = some ts)
    (ih : ∀ rest ts', rest.length < r.length → Token.readAll? rest = some ts' →
      weight ts' ≤ (unescapeText rest).length) : weight ts < (unescapeText ('<' :: r)).length := by
  cases hr : cutAt '>' r with
  | none =>
    rw [Token.readAll?_unclosed (cutAt_eq_none_iff.1 hr)] at h
    cases h
  | some p =>
    obtain ⟨hp, htag⟩ := cutAt_eq_some (a := p.1) (b := p.2) hr
    subst hp
    rw [Token.readAll?_tag htag] at h
    obtain ⟨t, ht, h⟩ := Option.bind_eq_some_iff.1 h
    obtain ⟨ts', hts', rfl⟩ := Option.map_eq_some_iff.1 h
    have hrest := ih p.2 ts' (by rw [List.length_append, List.length_cons]; omega) hts'
    rw [weight_cons_of_readTag? ht, unescapeText_cons (by decide),
      unescapeText_append_cons ⟨by decide, by decide, by decide⟩]
    simp only [List.length_cons, List.length_append]
    omega

/-- the texts that are read are no longer than what they are read from -/
theorem weight_le {s : List Char} {ts : List Token} (h : Token.readAll? s = some ts) :
    weight ts ≤ (unescapeText s).length := by
  induction hn : s.length using Nat.strongRecOn generalizing s ts with
  | _ n ih =>
    subst hn
    cases s with
    | nil =>
      rw [Token.readAll?_nil] at h
      cases h
      exact Nat.zero_le _
    | cons c r =>
      by_cases hc : c = '<'
      · subst hc
        exact (weight_tag_lt h fun rest ts' hlt hrest => ih _ (Nat.lt_succ_of_lt hlt) hrest rfl).le
      · obtain ⟨u, v, rfl, hu, hv⟩ := Token.exists_text r
        rw [Token.readAll?_text hc hu hv] at h
        obtain ⟨t, ht, h⟩ := Option.bind_eq_some_iff.1 h
        obtain ⟨ts', hts', rfl⟩ := Option.map_eq_some_iff.1 h
        have htext := length_unescapeText_resolve?_le ht
        have hrest := ih v.length (by rw [List.length_cons, List.length_append]; omega) hts' rfl
        have hsplit : (unescapeText (c :: (u ++ v))).length = (unescapeText (c :: u)).length + (unescapeText v).length := by
          cases v with
          | nil => rw [List.append_nil, unescapeText_nil, List.length_nil, Nat.add_zero]
          | cons x v =>
            cases hv x rfl
            have hsign : Apart '<' := ⟨by decide, by decide, by decide⟩
            rw [← List.cons_append, unescapeText_append_cons hsign, List.length_append, unescapeText_cons hsign.underscore]
        rw [weight, hsplit]
        omega

/-- an item that is open holds no more than is read up to its end -/
theorem exists_of_readItems (held : List Char) (element : Option (List (List Char × List Char))) (ts rest : List Token) :
    ∃ x more, readItems (some held) element (ts ++ .closing "si".toList :: rest) = x :: more ∧
      x.length ≤ held.length + weight ts := by
  induction ts generalizing held element with
  | nil => exact ⟨held, readItems none none rest, by rw [List.nil_append, readItems, if_pos rfl]; rfl, Nat.le_refl _⟩
  | cons t ts ih =>
    rw [List.cons_append]
    cases t with
    | opening name attributes =>
      rw [readItems, weight]
      split
      · obtain ⟨x, more, hx, hle⟩ := ih [] none
        exact ⟨x, more, hx, hle.trans (by rw [List.length_nil]; omega)⟩
      · exact ih held _
      · simp
    | closing name =>
      rw [readItems, weight]
      split
      · exact ⟨held, _, rfl, Nat.le_add_right _ _⟩
      · exact ih held _
      · simp
    | empty name attributes =>
      rw [readItems, weight]
      · exact ih held _
      · simp
    | text s =>
      rw [readItems.eq_def, weight]
      cases element with
      | none =>
        obtain ⟨x, more, hx, hle⟩ := ih held none
        exact ⟨x, more, hx, by omega⟩
      | some attributes =>
        obtain ⟨x, more, hx, hle⟩ := ih (held ++ unescapeText (textOf attributes s)) (some attributes)
        refine ⟨x, more, hx, hle.trans ?_⟩
        have := length_unescapeText_textOf_le attributes s
        rw [List.length_append]
        omega

/-! ## The ends of markup -/

theorem getLast?_escapeText_of_not_isControl {s : List Char} {c : Char} (h : s.getLast? = some c)
    (hc : isControl c = false) : (escapeText s).getLast? = some c := by
  induction s with
  | nil => cases h
  | cons d r ih =>
    cases r with
    | nil =>
      have hd : d = c := by simpa using h
      simp [escapeText, hd, hc, looksEscaped]
    | cons e r =>
      obtain ⟨front, hfront, -⟩ := escapeText_cons d (e :: r)
      rw [hfront, List.getLast?_append_of_ne_nil _ (escapeText_ne_nil (List.cons_ne_nil e r))]
      exact ih (by rwa [List.getLast?_cons_cons] at h)

/-- markup begins with a tag and ends with one -/
theorem exists_of_isRuns {s : List Char} (h : isRuns s = true) :
    (∃ r, escapeText s = '<' :: r) ∧ Token.Closed (escapeText s) := by
  simp only [isRuns, Bool.and_eq_true, Option.isSome_iff_exists] at h
  obtain ⟨⟨r, hr⟩, r', hr'⟩ := h
  have hfront := after?_eq_some hr
  have hback := after?_eq_some hr'
  constructor
  · rw [hfront]
    exact ⟨escapeText ('r' :: '>' :: r), rfl⟩
  · have hlast : s.getLast? = some '>' := by
      rw [← List.head?_reverse, hback]
      rfl
    intro c hc
    rw [getLast?_escapeText_of_not_isControl hlast (by decide)] at hc
    exact (Option.some.inj hc).symm

/-! ## Markup in the table -/

theorem opens_item (s : String) : Token.Opens (item s).write := by
  intro c hc
  unfold item at hc
  split at hc
  all_goals
    rw [Token.write_element] at hc
    exact (Option.some.inj hc).symm

theorem opens_items (texts : List String) : Token.Opens (Xml.writeAll (texts.map item)) := by
  induction texts with
  | nil => exact Token.readsAs_nil.opens
  | cons s texts ih => exact (opens_item s).append ih

/-- an item of markup lies between its own tags, and holds less text than was written -/
theorem exists_of_readAll?_runs {s : String} (hs : isRuns s.toList = true) {back : List Char} (hback : Token.Opens back)
    {ts : List Token} (h : Token.readAll? ((item s).write ++ back) = some ts) :
    ∃ body rest, ts = .opening "si".toList [] :: (body ++ .closing "si".toList :: rest) ∧
      weight body < s.toList.length := by
  obtain ⟨⟨r, hr⟩, hclosed⟩ := exists_of_isRuns hs
  have hopen : Token.ReadsAs "<si>".toList [.opening "si".toList []] :=
    .of_tag (by decide) (Token.readTag?_opening (by decide : Token.isTidyTag "si" [] = true)) Token.readsAs_nil.closed
      Token.readsAs_nil.read
  have hclose : Token.ReadsAs "</si>".toList [.closing "si".toList] :=
    Token.readsAs_closing (by decide : '>' ∉ "si".toList)
  have hwrite : (item s).write ++ back = "<si>".toList ++ (escapeText s.toList ++ ("</si>".toList ++ back)) := by
    simp [item, hs, Xml.write, Xml.writeAll, Xml.writeAttributes]
  have hopens : Token.Opens (escapeText s.toList) := fun c hc => by
    rw [hr] at hc
    exact (Option.some.inj hc).symm
  rw [hwrite] at h
  obtain ⟨ts1, ts2, h1, h2, rfl⟩ :=
    Token.exists_of_readAll?_append hopen.closed (hopens.append (hclose.opens.append hback)) h
  obtain ⟨body, ts3, hbody, h3, rfl⟩ := Token.exists_of_readAll?_append hclosed (hclose.opens.append hback) h2
  obtain ⟨ts4, rest, h4, -, rfl⟩ := Token.exists_of_readAll?_append hclose.closed hback h3
  cases hopen.read.symm.trans h1
  cases hclose.read.symm.trans h4
  refine ⟨body, rest, rfl, ?_⟩
  rw [hr] at hbody
  have hlt := weight_tag_lt hbody fun rest ts' _ => weight_le
  rwa [← hr, unescapeText_escapeText] at hlt

/-- **A reader takes the tags of markup for tags: it reads a text that is shorter, or refuses the table** -/
theorem exists_of_read?_runs {t : SharedStrings} {front back : List String} {s : String}
    (ht : t.texts.toList = front ++ s :: back) (hfront : ∀ x ∈ front, Plain x) (hs : isRuns s.toList = true)
    {texts : List (List Char)} (h : read? (Xml.document t.xml) = some texts) :
    ∃ x more, texts = front.map String.toList ++ x :: more ∧ x.length < s.toList.length := by
  obtain ⟨ts, hdocument, rfl⟩ := Option.map_eq_some_iff.1 h
  have hread := (Token.of_readDocument?_document hdocument).2
  have htag := isTidyTag_table t.uses t.texts.size
  have hitems : Token.ReadsAs (Xml.writeAll (front.map item)) (Xml.allTokens (front.map item)) := by
    refine Token.readsAs_writeAll fun x hx => ?_
    obtain ⟨y, hy, rfl⟩ := List.mem_map.1 hx
    exact (tidy_item (hfront y hy)).readsAs
  have hstart := Token.ReadsAs.of_tag (fun hmem => (Token.of_mem_tag htag hmem).1 rfl) (Token.readTag?_opening htag)
    hitems.closed hitems.read
  have hend : Token.Opens (Xml.writeAll (back.map item) ++ "</sst>".toList) :=
    (opens_items back).append fun c hc => (Option.some.inj hc).symm
  rw [write_xml ht] at hread
  obtain ⟨ts1, ts2, h1, h2, rfl⟩ := Token.exists_of_readAll?_append hstart.closed
    ((opens_item s).append hend) hread
  obtain ⟨body, rest, rfl, hlt⟩ := exists_of_readAll?_runs hs hend h2
  cases hstart.read.symm.trans h1
  obtain ⟨x, more, hx, hle⟩ := exists_of_readItems [] none body rest
  refine ⟨x, more, ?_, hle.trans_lt (by rwa [List.length_nil, Nat.zero_add])⟩
  simp only [List.cons_append, readItems]
  rw [if_neg (by decide), if_neg (by decide), readItems_items hfront, readItems, if_pos rfl, hx]

end SheetPost.Sheet.SharedStrings
