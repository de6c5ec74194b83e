/-
How lists of mailboxes are read. A sign divides a text where it stands outside of all tokens (`Lacks` says that one does
not stand at a place), and a text that begins and ends at the same place without such signs can be passed as a whole
(`Passes`). An address stands in a list if a reader passes it (`Stands`).

Main statement: a value of mailboxes is read as their entries just if each address stands (`read?_join_iff`).
-/
import Mathlib.Data.List.Forall2
import SheetPost.Mail.AddressList
import SheetPost.Proofs.Mail.Mailbox

namespace SheetPost.Mail.AddressList

open SheetPost.Text

variable {x : Char} {here p : Place} {s : List Char}

/-! ## Places -/

theorem Place.run_cons (p : Place) (c : Char) (s : List Char) : p.run (c :: s) = (p.next c).run s := rfl

theorem Place.run_append (p : Place) (s t : List Char) : p.run (s ++ t) = (p.run s).run t := List.foldl_append

theorem Place.next_open : Place.next .outside '<' = .angle := rfl

theorem Place.next_close : Place.next .angle '>' = .outside := rfl

/-- a blank leads to the outside from there only -/
theorem Place.next_isBlank {c : Char} (hc : isBlank c = true) (p : Place) :
    p.next c = .outside ↔ p = .outside := by
  have hsigns := forall_isBlank (P := fun c => c ≠ '<' ∧ c ≠ '>' ∧ c ≠ '"' ∧ c ≠ '[' ∧ c ≠ ']') (by decide) hc
  obtain ⟨inAngle, token⟩ := p
  cases token <;> simp [Place.next, Place.outside, Token.next, hsigns]
  split <;> simp

theorem Place.run_blanks {b : List Char} (hb : ∀ c ∈ b, isBlank c = true) (p : Place) :
    p.run b = .outside ↔ p = .outside := by
  induction b generalizing p with
  | nil => exact Iff.rfl
  | cons c b ih =>
    rw [run_cons, ih (fun d hd => hb d (List.mem_cons_of_mem c hd)), next_isBlank (hb c List.mem_cons_self)]

/-- a token goes on where its place is -/
theorem Place.next_of_token {token : Token} (ht : token ≠ .free) (inAngle : Bool) (c : Char) :
    Place.next ⟨inAngle, token⟩ c = ⟨inAngle, token.next c⟩ := by
  simp [Place.next, ht]

/-! ## Signs -/

/-- no `x` of the text, read from `p` on, stands at the place `here` -/
def Lacks (x : Char) (here p : Place) : List Char → Prop
  | [] => True
  | c :: r => ¬ (p = here ∧ c = x) ∧ Lacks x here (p.next c) r

theorem lacks_append {a b : List Char} : Lacks x here p (a ++ b) ↔ Lacks x here p a ∧ Lacks x here (p.run a) b := by
  induction a generalizing p with
  | nil => simp [Lacks, Place.run]
  | cons c a ih => rw [List.cons_append, Lacks, Lacks, ih, Place.run_cons, and_assoc]

theorem lacks_of_not_mem (h : x ∉ s) : Lacks x here p s := by
  induction s generalizing p with
  | nil => trivial
  | cons c s ih =>
    rw [List.mem_cons, not_or] at h
    exact ⟨fun hc => h.1 hc.2.symm, ih h.2⟩

/-- an angle that does not close keeps the outside away -/
theorem lacks_of_angle {token : Token} (h : Lacks '>' .angle ⟨true, token⟩ s) : Lacks x .outside ⟨true, token⟩ s := by
  induction s generalizing token with
  | nil => trivial
  | cons c s ih =>
    obtain ⟨hc, hs⟩ := h
    have houtside : (⟨true, token⟩ : Place) ≠ .outside := fun heq => Bool.noConfusion (congrArg Place.inAngle heq)
    refine ⟨fun heq => houtside heq.1, ?_⟩
    have hnext : Place.next ⟨true, token⟩ c = ⟨true, token.next c⟩ := by
      by_cases ht : token = .free
      · subst ht
        have hne : c ≠ '>' := fun heq => hc ⟨rfl, heq⟩
        simp [Place.next, hne]
      · exact Place.next_of_token ht true c
    rw [hnext] at hs ⊢
    exact ih hs

theorem cutAtSign_eq_none_iff : cutAtSign x here p s = none ↔ Lacks x here p s := by
  induction s generalizing p with
  | nil => simp [cutAtSign, Lacks]
  | cons c s ih =>
    rw [cutAtSign, Lacks, ← ih]
    split
    · next hc => simp [hc]
    · next hc => simp [hc]

/-- the cut is at the first sign -/
theorem cutAtSign_eq_some_iff {a b : List Char} :
    cutAtSign x here p s = some (a, b) ↔ s = a ++ x :: b ∧ Lacks x here p a ∧ p.run a = here := by
  induction s generalizing p a with
  | nil => simp [cutAtSign]
  | cons c s ih =>
    rw [cutAtSign]
    split
    · next hc =>
      obtain ⟨rfl, rfl⟩ := hc
      constructor
      · intro h
        cases h
        exact ⟨rfl, trivial, rfl⟩
      · rintro ⟨hs, hlacks, -⟩
        cases a with
        | nil =>
          cases hs
          rfl
        | cons d a =>
          cases hs
          exact absurd ⟨rfl, rfl⟩ hlacks.1
    · next hc =>
      rw [Option.map_eq_some_iff]
      constructor
      · rintro ⟨⟨a', b'⟩, hcut, heq⟩
        cases heq
        obtain ⟨rfl, hlacks, hrun⟩ := ih.1 hcut
        exact ⟨rfl, ⟨hc, hlacks⟩, hrun⟩
      · rintro ⟨hs, hlacks, hrun⟩
        cases a with
        | nil =>
          cases hs
          exact absurd ⟨hrun, rfl⟩ hc
        | cons d a =>
          cases hs
          exact ⟨(a, b), ih.2 ⟨rfl, hlacks.2, hrun⟩, rfl⟩

/-- without a comma outside a text goes to the first piece -/
theorem pieces_append {a piece : List Char} {more : List (List Char)} (ha : Lacks ',' .outside p a)
    (hs : pieces (p.run a) s = piece :: more) : pieces p (a ++ s) = (a ++ piece) :: more := by
  induction a generalizing p with
  | nil => exact hs
  | cons c a ih =>
    rw [List.cons_append, pieces, ih ha.2 hs, decide_eq_false ha.1]
    rfl

/-- the first piece is a beginning of the text, and it has no comma outside -/
theorem exists_pieces (p : Place) (s : List Char) :
    ∃ piece more, pieces p s = piece :: more ∧ piece <+: s ∧ Lacks ',' .outside p piece := by
  induction s generalizing p with
  | nil => exact ⟨[], [], rfl, List.prefix_rfl, trivial⟩
  | cons c s ih =>
    obtain ⟨piece, more, hs, hprefix, hlacks⟩ := ih (p.next c)
    by_cases hc : p = .outside ∧ c = ','
    · exact ⟨[], piece :: more, by rw [pieces, hs, decide_eq_true hc], List.nil_prefix, trivial⟩
    · refine ⟨c :: piece, more, by rw [pieces, hs, decide_eq_false hc], ?_, hc, hlacks⟩
      exact List.cons_prefix_cons.2 ⟨rfl, hprefix⟩

/-! ## Passing -/

/-- the text begins and ends at the place `p`, and none of `signs` in it stands there -/
structure Passes (signs : List Char) (p : Place) (s : List Char) : Prop where
  run : p.run s = p
  lacks : ∀ x ∈ signs, Lacks x p p s

namespace Passes

variable {signs : List Char}

theorem append {t : List Char} (hs : Passes signs p s) (ht : Passes signs p t) : Passes signs p (s ++ t) where
  run := by rw [Place.run_append, hs.run, ht.run]
  lacks x hx := by
    rw [lacks_append, hs.run]
    exact ⟨hs.lacks x hx, ht.lacks x hx⟩

theorem mono {fewer : List Char} (h : Passes signs p s) (hsub : fewer ⊆ signs) : Passes fewer p s where
  run := h.run
  lacks x hx := h.lacks x (hsub hx)

/-- a text without signs -/
theorem of_forall (hp : p.token = .free) (hs : ∀ c ∈ s, c ∉ '<' :: '>' :: '"' :: '[' :: signs) : Passes signs p s := by
  obtain ⟨inAngle, token⟩ := p
  simp only at hp
  subst hp
  constructor
  · induction s with
    | nil => rfl
    | cons c s ih =>
      have hc := hs c List.mem_cons_self
      simp only [List.mem_cons, not_or] at hc
      have hnext : Place.next ⟨inAngle, .free⟩ c = ⟨inAngle, .free⟩ := by simp [Place.next, Token.next, hc]
      rw [Place.run_cons, hnext]
      exact ih fun d hd => hs d (List.mem_cons_of_mem c hd)
  · intro x hx
    refine lacks_of_not_mem fun hmem => hs x hmem ?_
    simp [hx]

end Passes

/-- the text, read inside of the token `t`, ends in `t'` and is inside of a token all the way -/
def Leads (t t' : Token) : List Char → Prop
  | [] => t = t'
  | c :: r => t ≠ .free ∧ Leads (t.next c) t' r

theorem Leads.run {t t' : Token} (h : Leads t t' s) (inAngle : Bool) : Place.run ⟨inAngle, t⟩ s = ⟨inAngle, t'⟩ := by
  induction s generalizing t with
  | nil =>
    cases h
    rfl
  | cons c s ih =>
    rw [Place.run_cons, Place.next_of_token h.1]
    exact ih h.2

theorem Leads.lacks {t t' : Token} (h : Leads t t' s) (hhere : here.token = .free) (inAngle : Bool) :
    Lacks x here ⟨inAngle, t⟩ s := by
  induction s generalizing t with
  | nil => trivial
  | cons c s ih =>
    refine ⟨?_, ?_⟩
    · rintro ⟨rfl, -⟩
      exact h.1 hhere
    · rw [Place.next_of_token h.1]
      exact ih h.2

/-- a whole token -/
theorem Passes.token {signs : List Char} {opening closing : Char} {t : Token} (hp : p.token = .free)
    (hopening : opening ∉ '<' :: '>' :: signs) (hfirst : Token.free.next opening = t) (ht : t ≠ .free)
    (hs : Leads t t s) (hlast : t.next closing = .free) : Passes signs p (opening :: (s ++ [closing])) := by
  obtain ⟨inAngle, token⟩ := p
  simp only at hp
  subst hp
  simp only [List.mem_cons, not_or] at hopening
  have hnext : Place.next ⟨inAngle, .free⟩ opening = ⟨inAngle, t⟩ := by simp [Place.next, hfirst, hopening]
  constructor
  · rw [Place.run_cons, hnext, Place.run_append, hs.run, Place.run_cons, Place.next_of_token ht, hlast]
    rfl
  · intro x hx
    refine ⟨fun heq => hopening.2.2 (heq.2 ▸ hx), ?_⟩
    rw [hnext, lacks_append, hs.run]
    exact ⟨hs.lacks rfl inAngle, fun heq => ht (congrArg Place.token heq.1), trivial⟩

/-! ## One mailbox -/

/-- blanks around a text do not matter for where it ends -/
theorem Place.run_trim (s : List Char) : Place.outside.run (trim s) = .outside ↔ Place.outside.run s = .outside := by
  obtain ⟨before, behind, hs, hbefore, hbehind⟩ := exists_trimWhile isBlank s
  have hrun : Place.outside.run s = (Place.outside.run (trim s)).run behind := by
    calc Place.outside.run s = Place.outside.run (before ++ (trim s ++ behind)) := congrArg _ hs
      _ = (Place.outside.run (trim s)).run behind := by
        rw [run_append, (run_blanks hbefore .outside).2 rfl, run_append]
  rw [hrun, run_blanks hbehind]

/-- **What is read as one mailbox**: an address, or an address in angles that end the text, with a name before it -/
theorem readMailbox?_eq_some_iff {name : Option (List Char)} {addr : List Char} :
    readMailbox? s = some (name, addr) ↔
      (name = none ∧ addr = trim s ∧ Passes ['<'] .outside (trim s)) ∨
      ∃ lead, trim s = lead ++ '<' :: (addr ++ ['>']) ∧ Passes ['<'] .outside lead ∧ Passes ['>'] .angle addr ∧
        readName? lead = some name := by
  constructor
  · intro h
    rw [readMailbox?] at h
    split at h
    · cases h
    · next houtside =>
      rw [not_not, ← Place.run_trim] at houtside
      split at h
      · next hcut =>
        cases h
        refine .inl ⟨rfl, rfl, houtside, ?_⟩
        simpa using cutAtSign_eq_none_iff.1 hcut
      · next lead r hcut =>
        obtain ⟨htrim, hlacks, hlead⟩ := cutAtSign_eq_some_iff.1 hcut
        split at h
        · next addr' hend =>
          obtain ⟨n, hname, heq⟩ := Option.map_eq_some_iff.1 h
          cases heq
          obtain ⟨rfl, hangle, haddr⟩ := cutAtSign_eq_some_iff.1 hend
          exact .inr ⟨lead, htrim, ⟨hlead, by simpa using hlacks⟩, ⟨haddr, by simpa using hangle⟩, hname⟩
        · cases h
  · intro h
    rcases h with ⟨rfl, rfl, hpasses⟩ | ⟨lead, htrim, hlead, haddr, hname⟩
    · have houtside := (Place.run_trim s).1 hpasses.run
      have hcut := cutAtSign_eq_none_iff.2 (hpasses.lacks '<' List.mem_cons_self)
      rw [readMailbox?, if_neg (not_not.2 houtside), hcut]
    · have houtside : Place.outside.run s = .outside := by
        rw [← Place.run_trim, htrim, Place.run_append, hlead.run, Place.run_cons, Place.next_open, Place.run_append,
          haddr.run]
        exact Place.next_close
      have hcut : cutAtSign '<' .outside .outside (trim s) = some (lead, addr ++ ['>']) :=
        cutAtSign_eq_some_iff.2 ⟨htrim, hlead.lacks '<' List.mem_cons_self, hlead.run⟩
      have hend : cutAtSign '>' .angle .angle (addr ++ ['>']) = some (addr, []) :=
        cutAtSign_eq_some_iff.2 ⟨rfl, haddr.lacks '>' List.mem_cons_self, haddr.run⟩
      rw [readMailbox?, if_neg (not_not.2 houtside), hcut]
      simp only [hend, hname, Option.map_some]

/-! ## Entries -/

/-- the address of an entry stands in a list as one: a reader passes it from where it is written -/
def Stands : Entry → Prop
  | (none, addr) => Passes [',', '<'] .outside addr
  | (some _, addr) => Passes ['>'] .angle addr

/-- what addresses have in common, whatever stands in their domains -/
structure IsAddress (addr : List Char) : Prop where
  trim : trim addr = addr
  user : ∃ user domain, addr = user ++ '@' :: domain ∧ ∀ inAngle, Passes ['<', '>', ':'] ⟨inAngle, .free⟩ user

/-- an address begins with no blank and no angle -/
theorem IsAddress.exists_cons {addr : List Char} (h : IsAddress addr) :
    ∃ c r, addr = c :: r ∧ isBlank c = false ∧ c ≠ '<' := by
  obtain ⟨user, domain, haddr, hpasses⟩ := h.user
  have hlacks : Lacks '<' .outside .outside (user ++ ['@']) :=
    lacks_append.2 ⟨(hpasses false).lacks '<' (by decide), by simp, trivial⟩
  cases hc : addr with
  | nil =>
    rw [hc] at haddr
    simp at haddr
  | cons c r =>
    have htrim := h.trim
    rw [hc] at htrim haddr
    refine ⟨c, r, rfl, head_of_trimWhile htrim, fun hangle => ?_⟩
    cases user with
    | nil =>
      cases haddr
      cases hangle
    | cons d user =>
      cases haddr
      exact hlacks.1 ⟨rfl, hangle⟩

/-- blanks and an address do not begin with an angle -/
theorem IsAddress.head?_ne {addr b : List Char} (h : IsAddress addr) (hb : ∀ c ∈ b, isBlank c = true)
    (rest : List Char) : ((b ++ (addr ++ rest)).dropWhile isBlank).head? ≠ some '<' := by
  obtain ⟨c, r, rfl, hc, hne⟩ := h.exists_cons
  rw [List.dropWhile_append_of_pos hb, List.cons_append, List.dropWhile_cons_of_neg (by simp [hc]), List.head?_cons]
  simpa using hne

/-- how an entry is written: its address, or a name and the address in angles behind it -/
inductive Written : Entry → List Char → Prop where
  | bare {addr : List Char} : IsAddress addr → Written (none, addr) addr
  | named {lead name addr : List Char} : IsAddress addr → lead.dropWhile isBlank = lead →
      Passes [',', '<', ':'] .outside lead → readName? lead = some (some name) →
      Written (some name, addr) (lead ++ '<' :: (addr ++ ['>']))

theorem Passes.angled {addr : List Char} (h : Passes ['>'] .angle addr) :
    Passes [','] .outside ('<' :: (addr ++ ['>'])) where
  run := by
    rw [Place.run_cons, Place.next_open, Place.run_append, h.run]
    exact Place.next_close
  lacks := by
    refine List.forall_mem_singleton.2 ⟨by simp, ?_⟩
    rw [Place.next_open, lacks_append, h.run]
    exact ⟨lacks_of_angle (h.lacks '>' List.mem_cons_self), by simp, trivial⟩

theorem Passes.blanks {b : List Char} (hb : ∀ c ∈ b, isBlank c = true) : Passes [','] .outside b := by
  refine .of_forall rfl fun c hc => ?_
  exact forall_isBlank (P := fun c => c ∉ ['<', '>', '"', '[', ',']) (by decide) (hb c hc)

/-- an entry whose address stands is read back, and a reader passes it -/
theorem Written.read {e : Entry} {t b : List Char} (h : Written e t) (hs : Stands e) (hb : ∀ c ∈ b, isBlank c = true) :
    Passes [','] .outside (b ++ t) ∧ readMailbox? (b ++ t) = some e := by
  cases h with
  | bare haddr =>
    have htrim : trim (b ++ t) = t := by rw [trim, trimWhile_behind hb, ← trim, haddr.trim]
    refine ⟨(Passes.blanks hb).append (Passes.mono hs (by simp)), ?_⟩
    rw [readMailbox?_eq_some_iff, htrim]
    exact .inl ⟨rfl, rfl, Passes.mono hs (by simp)⟩
  | @named lead name addr _ hfront hlead hname =>
    have htrim : trim (b ++ (lead ++ '<' :: (addr ++ ['>']))) = lead ++ '<' :: (addr ++ ['>']) := by
      rw [trim, trimWhile_behind hb, ← trim, Mailbox.trim_angled, hfront]
    refine ⟨(Passes.blanks hb).append ((hlead.mono (by simp)).append (Passes.angled hs)), ?_⟩
    rw [readMailbox?_eq_some_iff, htrim]
    exact .inr ⟨lead, rfl, hlead.mono (by simp), hs, hname⟩

theorem trim_of_readName? {s : List Char} (h : readName? s = some none) : trim s = [] := by
  unfold readName? at h
  split at h
  · next hs => exact hs
  · obtain ⟨n, -, hn⟩ := Option.map_eq_some_iff.1 h
    cases hn
  · cases h

/-- what stands before an angle and is no name is nothing -/
theorem nil_of_readName? {lead r : List Char} (htrim : trim s = lead ++ r) (hname : readName? lead = some none) :
    lead = [] := by
  obtain ⟨before, behind, hlead, hbefore, hbehind⟩ := exists_trimWhile isBlank lead
  rw [← trim, trim_of_readName? hname, List.nil_append] at hlead
  cases hl : lead with
  | nil => rfl
  | cons d l =>
    rw [hl, List.cons_append] at htrim
    have hd := head_of_trimWhile htrim
    have hmem : d ∈ before ++ behind := by
      rw [← hlead, hl]
      exact List.mem_cons_self
    rw [List.forall_mem_append.2 ⟨hbefore, hbehind⟩ d hmem] at hd
    cases hd

/-- an entry that is read from the first piece of a text has an address that stands -/
theorem Written.stands {e : Entry} {t b rest piece : List Char} {more : List (List Char)} (h : Written e t)
    (hb : ∀ c ∈ b, isBlank c = true) (hp : pieces .outside (b ++ (t ++ rest)) = piece :: more)
    (hread : readMailbox? piece = some e) : Stands e := by
  obtain ⟨first, others, hfirst, ⟨tail, htext⟩, hcomma⟩ := exists_pieces .outside (b ++ (t ++ rest))
  rw [hp] at hfirst
  cases hfirst
  cases h with
  | bare haddr =>
    obtain ⟨before, behind, hpiece, hbefore, -⟩ := exists_trimWhile isBlank piece
    rw [← trim] at hpiece
    rcases readMailbox?_eq_some_iff.1 hread with ⟨-, heq, hpasses⟩ | ⟨lead, htrim, -, -, hname⟩
    · -- the piece is the address with blanks around it, and no comma stands in the piece
      rw [hpiece, lacks_append, (Place.run_blanks hbefore .outside).2 rfl, lacks_append, ← heq] at hcomma
      rw [← heq] at hpasses
      refine ⟨hpasses.run, ?_⟩
      simpa using And.intro hcomma.2.1 (hpasses.lacks '<' List.mem_cons_self)
    · -- an angle would be the first character that is no blank
      rw [nil_of_readName? htrim hname, List.nil_append] at htrim
      have hangle : ((piece ++ tail).dropWhile isBlank).head? = some '<' := by
        rw [hpiece, htrim, List.append_assoc, List.dropWhile_append_of_pos hbefore]
        rfl
      rw [htext] at hangle
      exact absurd hangle (haddr.head?_ne hb rest)
  | named =>
    rcases readMailbox?_eq_some_iff.1 hread with ⟨hnone, -, -⟩ | ⟨-, -, -, haddr, -⟩
    · cases hnone
    · exact haddr

/-! ## Lists -/

theorem pieces_comma (s : List Char) : pieces .outside (',' :: s) = [] :: pieces .outside s := rfl

/-- a piece that a reader passes is read by itself -/
theorem readMailboxes?_append {piece : List Char} (h : Passes [','] .outside piece) (s : List Char) :
    readMailboxes? (piece ++ ',' :: s) =
      (readMailbox? piece).bind fun e => (readMailboxes? s).map (e :: ·) := by
  have hcut : pieces .outside (piece ++ ',' :: s) = piece :: pieces .outside s := by
    have := pieces_append (h.lacks ',' List.mem_cons_self) (by rw [h.run]; exact pieces_comma s)
    rwa [List.append_nil] at this
  rw [readMailboxes?, hcut, List.mapM_cons, readMailboxes?]
  cases readMailbox? piece with
  | none => rfl
  | some e => cases (pieces .outside s).mapM readMailbox? <;> rfl

theorem readMailboxes?_of_passes {piece : List Char} (h : Passes [','] .outside piece) :
    readMailboxes? piece = (readMailbox? piece).map ([·]) := by
  have hcut : pieces .outside piece = [piece] := by
    have := pieces_append (s := []) (h.lacks ',' List.mem_cons_self) rfl
    rwa [List.append_nil] at this
  rw [readMailboxes?, hcut, List.mapM_cons, List.mapM_nil]
  cases readMailbox? piece <;> rfl

/-- the first entry of a list that is read is read from the first piece -/
theorem Written.stands_of_readMailboxes? {e : Entry} {es : List Entry} {t b rest : List Char} (h : Written e t)
    (hb : ∀ c ∈ b, isBlank c = true) (hread : readMailboxes? (b ++ (t ++ rest)) = some (e :: es)) : Stands e := by
  obtain ⟨piece, more, hp, -, -⟩ := exists_pieces .outside (b ++ (t ++ rest))
  rw [readMailboxes?, hp, List.mapM_cons] at hread
  cases hpiece : readMailbox? piece with
  | none =>
    rw [hpiece] at hread
    cases hread
  | some first =>
    cases hmore : more.mapM readMailbox? with
    | none =>
      rw [hpiece, hmore] at hread
      cases hread
    | some others =>
      rw [hpiece, hmore] at hread
      cases hread
      exact h.stands hb hp hpiece

/-- **Mailboxes with commas between them** are read as their entries, in order, just if each address stands -/
theorem readMailboxes?_join_iff {es : List Entry} {ts : List (List Char)} (h : List.Forall₂ Written es ts)
    (hne : es ≠ []) {b : List Char} (hb : ∀ c ∈ b, isBlank c = true) :
    readMailboxes? (b ++ join [',', ' '] ts) = some es ↔ ∀ e ∈ es, Stands e := by
  induction h generalizing b with
  | nil => exact absurd rfl hne
  | @cons e t es ts hw hrest ih =>
    cases hrest with
    | nil =>
      rw [join, List.forall_mem_singleton]
      constructor
      · intro hread
        rw [← List.append_nil t] at hread
        exact hw.stands_of_readMailboxes? hb hread
      · intro hs
        obtain ⟨hpasses, hread⟩ := hw.read hs hb
        rw [readMailboxes?_of_passes hpasses, hread]
        rfl
    | @cons e' t' es ts hw' hrest =>
      have hjoin : b ++ join [',', ' '] (t :: t' :: ts) = b ++ (t ++ ',' :: ([' '] ++ join [',', ' '] (t' :: ts))) := by
        simp [join]
      have htail := ih (List.cons_ne_nil e' es) (b := [' ']) (List.forall_mem_singleton.2 rfl)
      rw [hjoin, List.forall_mem_cons, ← htail]
      -- once the first address stands, the rest is read by itself
      have hstep (hs : Stands e) : readMailboxes? (b ++ (t ++ ',' :: ([' '] ++ join [',', ' '] (t' :: ts)))) =
          (readMailboxes? ([' '] ++ join [',', ' '] (t' :: ts))).map (e :: ·) := by
        obtain ⟨hpasses, hread⟩ := hw.read hs hb
        rw [← List.append_assoc, readMailboxes?_append hpasses, hread, Option.bind_some]
      constructor
      · intro hread
        have hs := hw.stands_of_readMailboxes? hb hread
        rw [hstep hs] at hread
        obtain ⟨others, hothers, heq⟩ := Option.map_eq_some_iff.1 hread
        cases heq
        exact ⟨hs, hothers⟩
      · rintro ⟨hs, hothers⟩
        rw [hstep hs, hothers]
        rfl

/-! ## Groups -/

/-- a value is no group if an `@` comes before any colon outside -/
theorem read?_of_at {a : List Char} (ha : Lacks ':' .outside .outside a) (hat : '@' ∈ a) (s : List Char) :
    read? (a ++ s) = readMailboxes? (a ++ s) := by
  rw [read?]
  cases hcut : cutAtSign ':' .outside .outside (a ++ s) with
  | none => rfl
  | some cut =>
    obtain ⟨name, members⟩ := cut
    obtain ⟨htext, -, hrun⟩ := cutAtSign_eq_some_iff.1 hcut
    have hname : '@' ∈ name := by
      rcases List.append_eq_append_iff.1 htext with ⟨more, hmore, -⟩ | ⟨more, hmore, hrest⟩
      · rw [hmore]
        exact List.mem_append_left more hat
      · cases more with
        | nil =>
          rw [List.append_nil] at hmore
          rwa [← hmore]
        | cons c more =>
          -- the colon would stand in `a`
          cases hrest
          rw [hmore, lacks_append, hrun] at ha
          exact absurd ⟨rfl, rfl⟩ ha.2.1
    simp only [if_pos hname]

/-- an entry is written with an `@` before any colon outside -/
theorem Written.exists_at {e : Entry} {t : List Char} (h : Written e t) :
    ∃ a s, t = a ++ s ∧ Lacks ':' .outside .outside a ∧ '@' ∈ a := by
  cases h with
  | bare haddr =>
    obtain ⟨user, domain, rfl, hpasses⟩ := haddr.user
    refine ⟨user ++ ['@'], domain, by simp, ?_, by simp⟩
    exact lacks_append.2 ⟨(hpasses false).lacks ':' (by decide), by simp, trivial⟩
  | @named lead name addr haddr _ hlead _ =>
    obtain ⟨user, domain, rfl, hpasses⟩ := haddr.user
    have hangle : Lacks '>' .angle .angle (user ++ ['@']) :=
      lacks_append.2 ⟨(hpasses true).lacks '>' (by decide), by simp, trivial⟩
    refine ⟨lead ++ '<' :: (user ++ ['@']), domain ++ ['>'], by simp, ?_, by simp⟩
    rw [lacks_append, hlead.run]
    refine ⟨hlead.lacks ':' (by decide), by simp, ?_⟩
    rw [Place.next_open]
    exact lacks_of_angle hangle

/-- **A value of mailboxes** is read as their entries just if each address stands -/
theorem read?_join_iff {es : List Entry} {ts : List (List Char)} (h : List.Forall₂ Written es ts) (hne : es ≠ []) :
    read? (join [',', ' '] ts) = some es ↔ ∀ e ∈ es, Stands e := by
  have hread : read? (join [',', ' '] ts) = readMailboxes? (join [',', ' '] ts) := by
    cases h with
    | nil => exact absurd rfl hne
    | @cons e t es ts hw hrest =>
      obtain ⟨a, s, rfl, hlacks, hat⟩ := hw.exists_at
      cases hrest with
      | nil => exact read?_of_at hlacks hat s
      | cons =>
        rw [join, List.append_assoc, List.append_assoc]
        exact read?_of_at hlacks hat _
  rw [hread]
  exact readMailboxes?_join_iff h hne (b := []) (List.forall_mem_nil _)

end SheetPost.Mail.AddressList
