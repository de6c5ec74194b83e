/-
Mailboxes in the header of a message, and what a reader of `From` and `To` makes of them. Names are written in quotes or
in encoded words, so no sign of a name divides the list. An address is written as it was given: a user is made of atoms
or quoted, and a domain is taken for one token or has no signs. Only a domain that is known by its ASCII form alone can
be different, where that form is a literal in brackets: the brackets are not there as it is written.

Main statement: the entries of `From` and `To` are read back just if every address stands, and which addresses do
(`entries_of_build`).
-/
import SheetPost.Proofs.Mail.AddressList
import SheetPost.Proofs.Mail.Domain
import SheetPost.Proofs.Mail.EncodedWord
import SheetPost.Proofs.Mail.RoundTrip

namespace SheetPost.Mail

open SheetPost.Text

/-! ## Addresses -/

namespace Address

open AddressList

theorem leads_of_isQuotedBody {s : List Char} (h : isQuotedBody s = true) : Leads .quoted .quoted s := by
  fun_induction isQuotedBody s with
  | case1 => rfl
  | case2 c r ih =>
    rw [Bool.and_eq_true] at h
    exact ⟨by decide, by decide, ih h.2⟩
  | case3 c r hc ih =>
    rw [Bool.and_eq_true] at h
    refine ⟨by decide, ?_⟩
    have hslash : c ≠ '\\' := by
      rintro rfl
      exact absurd h.1 (by decide)
    have hquote : c ≠ '"' := by
      rintro rfl
      exact absurd h.1 (by decide)
    have hnext : Token.next .quoted c = .quoted := by simp [Token.next, hslash, hquote]
    rw [hnext]
    exact ih h.2

theorem leads_of_isLiteralChar {s : List Char} (h : ∀ c ∈ s, isLiteralChar c = true) : Leads .literal .literal s := by
  induction s with
  | nil => rfl
  | cons c s ih =>
    rw [List.forall_mem_cons] at h
    refine ⟨by decide, ?_⟩
    have hclosing : c ≠ ']' := by
      rintro rfl
      exact absurd h.1 (by decide)
    have hnext : Token.next .literal c = .literal := by simp [Token.next, hclosing]
    rw [hnext]
    exact ih h.2

/-- a user is passed in an angle and outside -/
theorem passes_user {user : List Char} (h : isUser user = true) (inAngle : Bool) :
    Passes [',', '<', '>', ':'] ⟨inAngle, .free⟩ user := by
  unfold isUser at h
  rw [Bool.and_eq_true] at h
  have h := h.2
  split at h
  · next hquoted =>
    rw [Bool.and_eq_true, beq_iff_eq, beq_iff_eq] at hquoted
    rw [Bool.and_eq_true, decide_eq_true_eq] at h
    rw [eq_of_ends hquoted.1 hquoted.2 (by omega)]
    exact .token rfl (by decide) rfl (by decide) (leads_of_isQuotedBody h.2) rfl
  · refine .of_forall rfl fun c hc hsign => ?_
    have hnone : ∀ c ∈ ['<', '>', '"', '[', ',', '<', '>', ':'], c ≠ '.' ∧ isAtomChar c = false := by
      simp only [List.forall_mem_cons, List.not_mem_nil, false_implies, implies_true]
      decide +kernel
    rcases isAtomChar_of_isDotAtom h hc with hdot | hatom
    · exact (hnone c hsign).1 hdot
    · rw [(hnone c hsign).2] at hatom
      cases hatom

/-- the signs of a list are ASCII, and no domain outside brackets holds one -/
theorem not_isHostChar_of_sign : ∀ c ∈ ['<', '>', '"', '[', ',', '<', '>'],
    c.toNat < 0x80 ∧ c.toLower = c ∧ c ≠ '.' ∧ isHostChar c = false := by
  simp only [List.forall_mem_cons, List.not_mem_nil, false_implies, implies_true]
  decide +kernel

theorem passes_of_isHostChar {s : List Char} (h : ∀ c ∈ s, isHostChar c = true) (inAngle : Bool) :
    Passes [',', '<', '>'] ⟨inAngle, .free⟩ s := by
  refine .of_forall rfl fun c hc hsign => ?_
  have hhost := h c hc
  rw [(not_isHostChar_of_sign c hsign).2.2.2] at hhost
  cases hhost

/-- the domain is valid as it is written, or it is a name in its ASCII form: that form is no literal in brackets -/
def IsOrdinary (domain : List Char) : Prop :=
  isPlainDomain domain = true ∨ ∀ ascii, Net.DomainName.toAscii? domain = some ascii → bracketed? ascii = none

theorem passes_domain {domain : List Char} (h : isDomain domain = true) (hordinary : IsOrdinary domain)
    (inAngle : Bool) : Passes [',', '<', '>'] ⟨inAngle, .free⟩ domain := by
  by_cases hplain : isPlainDomain domain = true
  · cases hb : bracketed? domain with
    | none => exact passes_of_isHostChar (isHostChar_of_isPlainDomain hplain hb).2 inAngle
    | some literal =>
      have hliteral := leads_of_isLiteralChar (isLiteralChar_of_isPlainDomain hplain hb)
      rw [bracketed?_eq_some hb]
      exact .token rfl (by decide) rfl (by decide) hliteral rfl
  · obtain ⟨ascii, hascii, hform⟩ := (plain_of_isDomain h).resolve_left hplain
    have hchars := (isHostChar_of_isPlainDomain hform (hordinary.resolve_left hplain ascii hascii)).2
    -- a sign of the domain would be one of its ASCII form
    refine .of_forall rfl fun c hc hsign => ?_
    obtain ⟨hlt, hlower, hdot, hnone⟩ := not_isHostChar_of_sign c hsign
    have hhost := hchars c (Net.DomainName.mem_of_toAscii? hascii hc hlt hlower hdot)
    rw [hnone] at hhost
    cases hhost

theorem isAddress_of_parse {s : List Char} {a : Address} (h : parse s = .ok a) : IsAddress s where
  trim := trim_of_parse h
  user := by
    obtain ⟨hs, -, hu⟩ := of_parse h
    exact ⟨a.user, a.domain, hs, fun inAngle => (passes_user hu inAngle).mono (by decide)⟩

/-- **Which addresses a reader passes**: those with an ordinary domain, whatever their user is -/
theorem passes_of_parse {s : List Char} {a : Address} (h : parse s = .ok a) (hordinary : IsOrdinary a.domain)
    (inAngle : Bool) : Passes [',', '<', '>'] ⟨inAngle, .free⟩ s := by
  obtain ⟨rfl, -, hu⟩ := of_parse h
  have hat : Passes [',', '<', '>'] ⟨inAngle, .free⟩ ['@'] := .of_forall rfl (by simp)
  exact ((passes_user hu inAngle).mono (by decide)).append
    (hat.append (passes_domain (isDomain_of_parse h) hordinary inAngle))

/-- with an ordinary domain an address stands, alone and behind a name -/
theorem stands_of_isOrdinary {e : Entry} {a : Address} (h : parse e.2 = .ok a) (hordinary : IsOrdinary a.domain) :
    Stands e := by
  obtain ⟨name, addr⟩ := e
  have hpasses := passes_of_parse h hordinary
  cases name with
  | none => exact (hpasses false).mono (by decide)
  | some name => exact (hpasses true).mono (by decide)

end Address

/-! ## Mailboxes -/

namespace Mailbox

open AddressList

/-- what a reader of lists is to find -/
def entry (m : Mailbox) : Entry := (if m.name = [] then none else some m.name, m.address.text)

theorem leads_body (s : List Char) : Leads .quoted .quoted (QuotedString.body s) := by
  induction s with
  | nil => rfl
  | cons c s ih =>
    have e : QuotedString.body (c :: s) = QuotedString.escape c ++ QuotedString.body s := rfl
    rw [e, QuotedString.escape]
    split
    · exact ⟨by decide, by decide, ih⟩
    · next hc =>
      rw [Bool.or_eq_true, beq_iff_eq, beq_iff_eq, not_or] at hc
      have hnext : Token.next .quoted c = .quoted := by simp [Token.next, hc]
      refine ⟨by decide, ?_⟩
      rw [hnext]
      exact ih

/-- a name in quotes is passed, and read back -/
theorem written_quoted {name addr : List Char} (haddr : IsAddress addr) :
    Written (some name, addr) ((QuotedString.encode name ++ [' ']) ++ '<' :: (addr ++ ['>'])) := by
  refine .named haddr rfl ?_ ?_
  · have hname : Passes [',', '<', ':'] .outside (QuotedString.encode name) :=
      .token rfl (by decide) rfl (by decide) (leads_body name) rfl
    exact hname.append (.of_forall rfl (by simp))
  · have htrim : trim (QuotedString.encode name ++ [' ']) = QuotedString.encode name := by
      rw [trim, trimWhile_append (List.forall_mem_singleton.2 rfl), ← trim, trim_quoted]
    have hdecode := QuotedString.decode?_encode name
    rw [readName?, htrim]
    rw [QuotedString.encode] at hdecode ⊢
    simp only [hdecode, Option.map_some]

/-- a name in encoded words is passed, and read back -/
theorem written_encoded {name addr : List Char} (haddr : IsAddress addr) (hbeyond : isAscii name = false) :
    Written (some name, addr) ((unfolded (EncodedWord.encode name) ++ [' ']) ++ '<' :: (addr ++ ['>'])) := by
  have hhead := EncodedWord.head?_unfolded_encode hbeyond
  have hdecode := EncodedWord.decodeText_unfolded_encode hbeyond
  have hplain := EncodedWord.forall_mem_unfolded_encode
    (p := fun c => !(['<', '>', '"', '[', ',', '<', ':'].contains c)) (by decide) (by decide) (by decide) hbeyond
  generalize unfolded (EncodedWord.encode name) = shown at hhead hdecode hplain
  obtain ⟨r, rfl⟩ := List.head?_eq_some_iff.1 hhead
  refine .named haddr rfl ?_ ?_
  · have hname : Passes [',', '<', ':'] .outside ('=' :: r) := by
      refine .of_forall rfl fun c hc => ?_
      simpa using hplain c hc
    exact hname.append (.of_forall rfl (by simp))
  · have htrim : trim (('=' :: r) ++ [' ']) = '=' :: dropEndWhile isBlank r := by
      have hfront := trimWhile_append_cons (p := isBlank) (a := []) (c := '=') (List.forall_mem_nil _) (by decide) r
      rw [trim, trimWhile_append (List.forall_mem_singleton.2 rfl)]
      exact hfront
    have hwords : words ('=' :: dropEndWhile isBlank r) = words ('=' :: r) := by
      rw [← htrim, words_trim, words_append_blanks (List.forall_mem_singleton.2 rfl)]
    have hread : readName? (('=' :: r) ++ [' ']) =
        some (some (EncodedWord.decodeText ('=' :: dropEndWhile isBlank r))) := by
      rw [readName?, htrim]
      rfl
    rw [hread, EncodedWord.decodeText, hwords, ← EncodedWord.decodeText, hdecode]

/-- **A mailbox is written as its entry** -/
theorem written_render {s : List Char} {m : Mailbox} (hs : hasBreak s = false) (h : parse s = .ok m) :
    Written m.entry (unfolded m.render) := by
  obtain ⟨hname, haddr⟩ := hasBreak_of_parse hs h
  have haddress : IsAddress m.address.text := by
    have hread := (parse_eq_ok_iff.1 h).2
    rw [Address.text_of_parse hread]
    exact Address.isAddress_of_parse hread
  have hangle : hasBreak (' ' :: '<' :: (m.address.text ++ ['>'])) = false := by simpa [hasBreak] using haddr
  obtain ⟨name, address⟩ := m
  simp only at hname haddr haddress hangle
  by_cases hempty : name = []
  · subst hempty
    have hrender : unfolded (render ⟨[], address⟩) = address.text := unfolded_of_hasBreak haddr
    rw [hrender]
    exact .bare haddress
  · have hentry : entry ⟨name, address⟩ = (some name, address.text) := by rw [entry, if_neg hempty]
    rw [hentry]
    cases hascii : isAscii name with
    | true =>
      have hquoted : hasBreak (render ⟨name, address⟩) = false := by
        have hbody := hasBreak_body hname
        rw [render_quoted hempty hascii]
        simpa [QuotedString.encode, hasBreak] using And.intro hbody haddr
      rw [unfolded_of_hasBreak hquoted, render_quoted hempty hascii]
      exact written_quoted haddress
    | false =>
      rw [render_encoded hascii, (folded_encode hname).unfolded_append (folded_of_hasBreak hangle),
        unfolded_of_hasBreak hangle]
      have hwritten := written_encoded haddress hascii
      rwa [List.append_assoc, List.singleton_append] at hwritten

end Mailbox

/-! ## Fields -/

namespace Message

open AddressList

/-- the entry that a text of the user is to give: the address in it, and the name before the last angle if there is
one -/
structure Gives (s : List Char) (e : Entry) : Prop where
  bare : ¬ Mailbox.IsAngled (trim s) → e = (none, trim s)
  angled : ∀ name addr, trim s = name ++ '<' :: (addr ++ ['>']) → '<' ∉ addr →
    e = (if Mailbox.bareName name = [] then none else some (Mailbox.bareName name), trim addr)
  address : ∃ a, Address.parse e.2 = .ok a

theorem gives_of_parse {s : List Char} {m : Mailbox} (h : Mailbox.parse s = .ok m) : Gives s m.entry := by
  obtain ⟨hname, haddr⟩ := Mailbox.parse_eq_ok_iff.1 h
  have htext := Address.text_of_parse haddr
  refine ⟨?_, ?_, m.address, by rw [Mailbox.entry, htext, haddr]⟩
  · intro hbare
    rw [Mailbox.parts_of_not_isAngled hbare] at hname htext
    rw [Mailbox.entry, hname, htext, if_pos rfl]
  · intro name addr htrim hangle
    rw [htrim, Mailbox.parts_append hangle] at hname htext
    rw [Mailbox.entry, hname, htext]

/-- the values of mailboxes, unfolded, are read as their entries just if each address stands -/
theorem read?_renders_iff {values : List String} {ms : List Mailbox}
    (hb : ∀ value ∈ values, hasBreak value.toList = false)
    (hms : List.Forall₂ (fun value m => Mailbox.parse value.toList = .ok m) values ms) (hne : ms ≠ []) :
    AddressList.read? (unfolded (join [',', ' '] (ms.map Mailbox.render))) = some (ms.map Mailbox.entry) ↔
      ∀ e ∈ ms.map Mailbox.entry, Stands e := by
  have hwritten : List.Forall₂ Written (ms.map Mailbox.entry) ((ms.map Mailbox.render).map unfolded) := by
    clear hne
    induction hms with
    | nil => exact .nil
    | @cons value m values ms hm _ ih =>
      rw [List.forall_mem_cons] at hb
      exact .cons (Mailbox.written_render hb.1 hm) (ih hb.2)
  rw [unfolded_join (folded_of_hasBreak (by decide)) (folded_renders hb hms), unfolded_of_hasBreak (by decide)]
  exact read?_join_iff hwritten (by simpa using hne)

/-- so is the value of one mailbox -/
theorem read?_render_iff {value : String} {m : Mailbox} (hb : hasBreak value.toList = false)
    (hm : Mailbox.parse value.toList = .ok m) :
    AddressList.read? (unfolded m.render) = some [m.entry] ↔ Stands m.entry := by
  have hms : List.Forall₂ (fun value m => Mailbox.parse value.toList = .ok m) [value] [m] := .cons hm .nil
  have hread := read?_renders_iff (List.forall_mem_singleton.2 hb) hms (List.cons_ne_nil m [])
  exact hread.trans List.forall_mem_singleton

theorem read?_renderMailbox_iff {field : Field} {value : String} {v : List Char} (hb : hasBreak value.toList = false)
    (h : renderMailbox field value = .ok v) :
    ∃ e, Gives value.toList e ∧ (AddressList.read? (unfolded v) = some [e] ↔ Stands e) := by
  obtain ⟨m, hm, rfl⟩ := exists_of_renderMailbox h
  exact ⟨m.entry, gives_of_parse hm, read?_render_iff hb hm⟩

theorem read?_undisclosed : AddressList.read? (unfolded undisclosed) = some [] := by decide +kernel

/-- without recipients a group without members is read -/
theorem read?_renderRecipients_iff {recipients : List String} {v : List Char}
    (hb : ∀ r ∈ recipients, hasBreak r.toList = false) (h : renderRecipients recipients = .ok v) :
    ∃ es, List.Forall₂ (fun r e => Gives r.toList e) recipients es ∧
      (AddressList.read? (unfolded v) = some es ↔ ∀ e ∈ es, Stands e) := by
  obtain ⟨ms, hms, rfl⟩ := exists_mailboxes_of_renderRecipients h
  have hgives : List.Forall₂ (fun r e => Gives r.toList e) recipients (ms.map Mailbox.entry) :=
    List.forall₂_map_right_iff.2 (hms.imp fun r m hm => gives_of_parse hm)
  refine ⟨ms.map Mailbox.entry, hgives, ?_⟩
  cases hms with
  | nil => simp [read?_undisclosed]
  | cons hm hrest => exact read?_renders_iff hb (.cons hm hrest) (List.cons_ne_nil _ _)

theorem lookup_mailboxes (sender recipients subject date boundary : List Char) :
    ((topFields sender recipients subject date boundary).map seen).lookup "From".toList = some (unfolded sender) ∧
    ((topFields sender recipients subject date boundary).map seen).lookup "To".toList = some (unfolded recipients) := by
  unfold topFields
  constructor
  · rw [lookup_seen, List.lookup_cons_self, Option.map_some]
  · rw [lookup_seen, lookup_behind, List.lookup_cons_self, Option.map_some]
    decide

/-- **Sender and recipients are read back** from the fields of a message that was built, as many as there are and in
their order, each with its name and its address, just if every address stands in its place. Names may be any; an address
stands unless its domain is valid in its ASCII form alone, and that form is a literal in brackets. -/
theorem entries_of_build {drawn : List (List Char)} {now : Calendar.Moment} {h : Headers} {text : String}
    {attachments : List Attachment} {m : Message} (hdrawn : ∀ b ∈ drawn, IsToken b)
    (hm : build drawn (Calendar.Rfc2822.write now) h text attachments = .ok m) :
    ∃ fields rest sender recipients, (Utf8.decode? m.bytes).bind readBlock? = some (fields, rest) ∧
      Gives h.sender.toList sender ∧ List.Forall₂ (fun r e => Gives r.toList e) h.recipients recipients ∧
      ((fields.lookup "From".toList).bind AddressList.read? = some [sender] ↔ Stands sender) ∧
      ((fields.lookup "To".toList).bind AddressList.read? = some recipients ↔ ∀ e ∈ recipients, Stands e) ∧
      ∀ e ∈ sender :: recipients, ∀ a, Address.parse e.2 = .ok a → Address.IsOrdinary a.domain → Stands e := by
  obtain ⟨shown, shownAll, hs, hr, -, htop, -, htext⟩ := exists_topFields_of_build hdrawn hm
  obtain ⟨-, -, hchecked, -⟩ := exists_of_build hm
  have hunbroken := unbroken_of_checked hchecked
  obtain ⟨sender, hsender, hreadSender⟩ := read?_renderMailbox_iff hunbroken.sender hs
  obtain ⟨recipients, hrecipients, hreadRecipients⟩ := read?_renderRecipients_iff hunbroken.recipients hr
  have hlookup := lookup_mailboxes shown shownAll h.subject.toList (Calendar.Rfc2822.write now) m.boundary
  have hblock := readBlock?_bytes (by simp [topFields]) htop htext
  refine ⟨_, _, sender, recipients, hblock, hsender, hrecipients, ?_, ?_, ?_⟩
  · rw [hlookup.1, Option.bind_some, hreadSender]
  · rw [hlookup.2, Option.bind_some, hreadRecipients]
  · intro e _ a ha hordinary
    exact Address.stands_of_isOrdinary ha hordinary

/-- names and users with the signs of lists in them, and a literal with a comma -/
theorem entries_of_build_signs :
    (∀ b ∈ ["=_0123456789abcdef0123456789abcdef".toList], IsToken b) ∧
    ∃ m, build ["=_0123456789abcdef0123456789abcdef".toList]
        (Calendar.Rfc2822.write ⟨⟨2026, 10, 18⟩, ⟨9, 0, 0⟩, 0, 0⟩)
        ⟨"\"Ops, Team\" <ops@example.com>",
          ["J\u00f6rg: <jorg@example.com>", "\"a,b\"@x.co", " a, \"b\" <x> <c@[1.2,3]> "], ""⟩ "" [] = .ok m ∧
      ∃ fields rest, (Utf8.decode? m.bytes).bind readBlock? = some (fields, rest) ∧
        (fields.lookup "From".toList).bind AddressList.read? =
          some [(some "Ops, Team".toList, "ops@example.com".toList)] ∧
        (fields.lookup "To".toList).bind AddressList.read? =
          some [(some "J\u00f6rg:".toList, "jorg@example.com".toList), (none, "\"a,b\"@x.co".toList),
            (some "a, \"b\" <x>".toList, "c@[1.2,3]".toList)] := by
  have htoken : ∀ b ∈ ["=_0123456789abcdef0123456789abcdef".toList], IsToken b := by decide
  refine ⟨htoken, exists_ok_and (by decide +kernel) fun m hm => ?_⟩
  obtain ⟨fields, rest, sender, recipients, hblock, hsender, hrecipients, hfrom, hto, hstands⟩ :=
    entries_of_build htoken hm
  have hordinary : ∀ domain ∈ ["example.com".toList, "x.co".toList, "[1.2,3]".toList],
      Address.isPlainDomain domain = true := by
    decide +kernel
  have hsender := hsender.angled "\"Ops, Team\" ".toList "ops@example.com".toList (by decide) (by decide)
  refine ⟨fields, rest, hblock, ?_, ?_⟩
  · have heq : sender = (some "Ops, Team".toList, "ops@example.com".toList) := hsender.trans (by decide)
    subst heq
    exact hfrom.2 (hstands _ List.mem_cons_self ⟨"ops".toList, "example.com".toList⟩ (by decide +kernel)
      (.inl (hordinary _ (by decide))))
  · obtain ⟨first, behind, hfirst, hbehind, rfl⟩ := List.forall₂_cons_left_iff.1 hrecipients
    obtain ⟨second, last, hsecond, hlast, rfl⟩ := List.forall₂_cons_left_iff.1 hbehind
    obtain ⟨third, empty, hthird, hempty, rfl⟩ := List.forall₂_cons_left_iff.1 hlast
    obtain rfl := List.forall₂_nil_left_iff.1 hempty
    have hbare : ¬ Mailbox.IsAngled (trim "\"a,b\"@x.co".toList) := fun h => absurd h.getLast? (by decide)
    obtain rfl : first = (some "J\u00f6rg:".toList, "jorg@example.com".toList) :=
      (hfirst.angled "J\u00f6rg: ".toList "jorg@example.com".toList (by decide) (by decide)).trans (by decide)
    obtain rfl : second = (none, "\"a,b\"@x.co".toList) := (hsecond.bare hbare).trans (by decide)
    obtain rfl : third = (some "a, \"b\" <x>".toList, "c@[1.2,3]".toList) :=
      (hthird.angled "a, \"b\" <x> ".toList "c@[1.2,3]".toList (by decide) (by decide)).trans (by decide)
    refine hto.2 (List.forall_mem_cons.2 ⟨?_, List.forall_mem_cons.2 ⟨?_, List.forall_mem_singleton.2 ?_⟩⟩)
    · exact hstands _ (by simp) ⟨"jorg".toList, "example.com".toList⟩ (by decide +kernel)
        (.inl (hordinary _ (by decide)))
    · exact hstands _ (by simp) ⟨"\"a,b\"".toList, "x.co".toList⟩ (by decide +kernel)
        (.inl (hordinary _ (by decide)))
    · exact hstands _ (by simp) ⟨"c".toList, "[1.2,3]".toList⟩ (by decide +kernel) (.inl (hordinary _ (by decide)))

/-- brackets in a wide form are brackets in the ASCII form of a domain only, so the comma in them divides the list -/
theorem entries_of_build_wide :
    Address.parse "a@\uff3bx,y\uff3d".toList = .ok ⟨"a".toList, "\uff3bx,y\uff3d".toList⟩ ∧
    (((build ["=_0123456789abcdef0123456789abcdef".toList]
        (Calendar.Rfc2822.write ⟨⟨2026, 10, 18⟩, ⟨9, 0, 0⟩, 0, 0⟩) ⟨"a@b.co", ["a@\uff3bx,y\uff3d"], "s"⟩ ""
        []).toOption.bind fun m => (Utf8.decode? m.bytes).bind readBlock?).bind fun block =>
      (block.1.lookup "To".toList).bind AddressList.read?) =
        some [(none, "a@\uff3bx".toList), (none, "y\uff3d".toList)] := by
  decide +kernel

end Message

end SheetPost.Mail
