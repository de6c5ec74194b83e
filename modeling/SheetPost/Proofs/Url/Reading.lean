/-
URLs of servers, read and written. Behind a text that spells a host the port and the path are read as they stand, so the
text of a URL whose parts are in the form that they are brought into is read as that URL. A text that spells no host is
refused with its port behind it, if it holds none of the signs that move the end of a host (`Host.movers`).

Main statements: `parse?_text`, for URLs of servers whose scheme has no rules of its own, and `readAuthority?_eq_none`.
-/
import SheetPost.Proofs.Url.Host

namespace SheetPost.Url

open SheetPost.Text

/-! ## Port and path -/

/-- a path that begins with a slash, if it is not empty, and goes to the end of the URL -/
structure IsPathText (path : List Char) : Prop where
  front : ∀ c, path.head? = some c → c = '/'
  query : '?' ∉ path
  fragment : '#' ∉ path

theorem isPathText_nil : IsPathText [] where
  front _ h := nomatch h
  query := List.not_mem_nil
  fragment := List.not_mem_nil

theorem IsNormal.isPathText {path : List Char} (h : IsNormal path) : IsPathText path := by
  refine ⟨fun c hc => ?_, not_mem_of_isKept h.kept (by decide), not_mem_of_isKept h.kept (by decide)⟩
  rcases h.front with rfl | hfront
  · cases hc
  · exact Option.some.inj (hc.symm.trans hfront)

theorem isDigit_of_mem_decimal {n : Nat} {c : Char} (h : c ∈ decimal n) : c.isDigit = true :=
  Nat.isDigit_of_mem_toDigits (by decide) (by decide) h

theorem lt_of_isDigit {c : Char} (h : c.isDigit = true) : 0x20 < c.toNat := by
  have := isDigit_iff.1 h
  omega

/-- a text with a port behind it ends with a digit -/
theorem isDigit_of_getLast? {s : List Char} {n : Nat} {c : Char} (h : (s ++ ':' :: decimal n).getLast? = some c) :
    c.isDigit = true := by
  rw [List.append_cons, List.getLast?_append, List.getLast?_eq_some_getLast (decimal_ne_nil n), Option.some_or,
    Option.some.injEq] at h
  exact isDigit_of_mem_decimal (h ▸ List.getLast_mem (decimal_ne_nil n))

theorem readPort?_decimal {n : Nat} (hn : n ≤ 65535) {path : List Char} (hpath : IsPathText path) :
    readPort? (decimal n ++ path) = some (some n, path) := by
  have hdigits : ∀ c ∈ decimal n, c.isDigit = true := fun c hc => isDigit_of_mem_decimal hc
  have hhead : ∀ c, path.head? = some c → c.isDigit = false := by
    intro c hc
    rw [hpath.front c hc]
    decide
  have htake : (decimal n ++ path).takeWhile Char.isDigit = decimal n := takeWhile_append hdigits hhead
  have hdrop : (decimal n ++ path).dropWhile Char.isDigit = path := by
    rw [List.dropWhile_append_of_pos hdigits, dropWhile_eq_self hhead]
  have hends : ¬ (path.head?.any fun c => !endsAuthority true c) = true := by
    cases path with
    | nil => simp
    | cons c r => simp [endsAuthority, hpath.front c rfl]
  have hfull : ¬ (decimal n).isEmpty = true := by simp [decimal_ne_nil]
  have hread : readUnsigned? 10 65535 (decimal n) = some n := readUnsigned?_of_readDigits? (readDigits?_decimal n) hn
  unfold readPort?
  rw [htake, hdrop]
  simp only
  rw [if_neg hends, if_neg hfull, hread]
  rfl

theorem withPath_of_isPathText {path : List Char} (hpath : IsPathText path) (u : Url) :
    u.withPath path = { u with path := normalizePath (isSpecial u.scheme) path, query := none, fragment := none } := by
  have htake : path.takeWhile (fun c => c != '?' && c != '#') = path := by
    rw [List.takeWhile_eq_self_iff]
    intro c hc
    have hquery : c ≠ '?' := fun h => hpath.query (h ▸ hc)
    have hfragment : c ≠ '#' := fun h => hpath.fragment (h ▸ hc)
    simp [hquery, hfragment]
  simp only [withPath, htake, List.drop_length]
  rfl

/-! ## The authority -/

theorem cutUserinfo?_eq {info location path : List Char} (hinfo : ∀ c ∈ info, isDelimiter c = false)
    (hlocation : ∀ c ∈ location, isDelimiter c = false) (hpath : IsPathText path) :
    cutUserinfo? false (beforeHost info ++ location ++ path) = some (info, location ++ path) := by
  have hauthority := takeWhile_authority hinfo hlocation fun c hc => by
    rw [hpath.front c hc]
    rfl
  have hat : '@' ∉ location := fun hc => absurd (hlocation '@' hc) (by decide)
  have hlast : cutAtLast '@' (beforeHost info ++ location) = if info.isEmpty then none else some (info, location) := by
    unfold beforeHost
    cases info with
    | nil => exact cutAtLast_eq_none_iff.2 hat
    | cons c r => exact cutAtLast_eq_some_iff.2 ⟨by simp, hat⟩
  unfold cutUserinfo?
  simp only
  rw [hauthority, List.drop_left, hlast]
  cases info with
  | nil => rfl
  | cons c r => simp

/-- a port holds no sign that divides -/
theorem isDelimiter_of_mem_port {s : List Char} (hs : ∀ c ∈ s, isDelimiter c = false) (n : Nat) :
    ∀ c ∈ s ++ ':' :: decimal n, isDelimiter c = false := by
  intro c hc
  rcases List.mem_append.1 hc with hc | hc
  · exact hs c hc
  · rcases List.mem_cons.1 hc with rfl | hc
    · decide
    · exact isDelimiter_of_mem_toDigits (by decide) (by decide) hc

/-- **An authority is read as it is put together** -/
theorem readAuthority?_eq {scheme info s path : List Char} {h : Host} {n : Nat} (hscheme : isSpecial scheme = false)
    (hinfo : ∀ c ∈ info, isDelimiter c = false) (hhost : h.SpelledBy s) (hn : n ≤ 65535) (hpath : IsPathText path) :
    readAuthority? scheme (beforeHost info ++ (s ++ ':' :: decimal n) ++ path) =
      some ⟨scheme, (splitUserinfo info).1, (splitUserinfo info).2, some h, some n, normalizePath false path, none,
        none⟩ := by
  have hlocation := isDelimiter_of_mem_port hhost.isDelimiter_eq_false n
  have hport : specialPort? scheme = none := by
    have := (Bool.or_eq_false_iff.1 hscheme).1
    simpa using this
  have hends : EndsHost (':' :: (decimal n ++ path)) := fun c hc => .inl (Option.some.inj hc).symm
  have hfull : ¬ s.isEmpty = true := by simpa using hhost.ne_nil
  have hinfo := cutUserinfo?_eq hinfo hlocation hpath
  have hcut := cutHost_of_spelledBy hhost hends
  have hread := (Host.readOpaque?_eq_some_iff hhost.ne_nil).2 hhost
  have htext : s ++ ':' :: decimal n ++ path = s ++ ':' :: (decimal n ++ path) := by simp
  simp only [readAuthority?, hscheme, hinfo, htext, hcut, hread, readPort?_decimal hn hpath, hport, Option.bind_eq_bind,
    Option.bind_some, if_neg hfull, Bool.false_eq_true, if_false, withPath_of_isPathText hpath]
  rfl

/-! ## Hosts that are refused -/

/-- the host is cut off before a colon, or where the authority ends -/
theorem cutHost_eq {bracket : Bool} {s host rest : List Char} (h : cutHost false bracket s = (host, rest)) :
    s = host ++ rest ∧ EndsHost rest := by
  induction s generalizing bracket host with
  | nil =>
    cases h
    exact ⟨rfl, fun c hc => nomatch hc⟩
  | cons c s ih =>
    rw [cutHost] at h
    split at h
    · next hstop =>
      cases h
      refine ⟨rfl, fun d hd => ?_⟩
      obtain rfl := Option.some.inj hd
      rw [Bool.or_eq_true, Bool.and_eq_true, beq_iff_eq] at hstop
      exact hstop.imp And.left id
    · cases h
      obtain ⟨hs, hrest⟩ := ih rfl
      exact ⟨congrArg (c :: ·) hs, hrest⟩

/-- behind the digits of a port stands the end of the authority, and not a colon -/
theorem readPort?_eq_none {t : List Char} (ht : ∀ c ∈ t, c ∉ Host.movers) (rest : List Char) :
    readPort? (t ++ ':' :: rest) = none := by
  have hbehind : ∃ c r, (t ++ ':' :: rest).dropWhile Char.isDigit = c :: r ∧ (c ∈ t ∨ c = ':') := by
    clear ht
    induction t with
    | nil => exact ⟨':', rest, rfl, .inr rfl⟩
    | cons c t ih =>
      rw [List.cons_append, List.dropWhile_cons]
      split
      · obtain ⟨d, r, hr, hd⟩ := ih
        exact ⟨d, r, hr, hd.imp_left (List.mem_cons_of_mem c)⟩
      · exact ⟨c, t ++ ':' :: rest, rfl, .inl List.mem_cons_self⟩
  obtain ⟨c, r, hdrop, hc⟩ := hbehind
  have hgoes : endsAuthority true c = false := by
    rcases hc with hc | rfl
    · have := ht c hc
      simp only [Host.movers, List.mem_cons, List.not_mem_nil, or_false, not_or] at this
      simp [endsAuthority, this]
    · decide
  unfold readPort?
  simp only
  rw [hdrop, if_pos (by simp [hgoes])]

/-- no host takes in the port behind it -/
theorem Host.not_spelledBy_port (h : Host) (s : List Char) (n : Nat) : ¬ h.SpelledBy (s ++ ':' :: decimal n) := by
  intro hs
  generalize ht : s ++ ':' :: decimal n = t at hs
  cases hs with
  | name _ hplain =>
    have := hplain ':' (by simp [← ht])
    cases this
  | @ipv6 t groups _ =>
    have hlast : (s ++ ':' :: decimal n).getLast? = some ']' := by
      rw [ht, ← List.cons_append]
      exact List.getLast?_concat
    have := isDigit_of_getLast? hlast
    cases this

/-- where a host is cut off a text that spells none, what stands behind it is no port -/
theorem exists_refusedPort {h : Host} {s host rest : List Char} {n : Nat} (hno : ∀ c ∈ s, c ∉ Host.movers)
    (hnot : ¬ h.SpelledBy s) (hhost : h.SpelledBy host) (htext : s ++ ':' :: decimal n = host ++ rest)
    (hcolon : ∀ c, rest.head? = some c → c = ':') : ∃ r, rest = ':' :: r ∧ readPort? r = none := by
  cases rest with
  | nil =>
    rw [List.append_nil] at htext
    exact absurd (htext ▸ hhost) (h.not_spelledBy_port s n)
  | cons c r =>
    obtain rfl := hcolon c rfl
    refine ⟨r, rfl, ?_⟩
    -- the host cannot end within the port, whose digits hold no colon; if it ends within the text, the rest of the text
    -- and the port's own colon stand behind it
    rcases List.append_eq_append_iff.1 htext with ⟨more, hlonger, hrest⟩ | ⟨more, hshorter, hrest⟩
    · cases more with
      | nil =>
        rw [List.append_nil] at hlonger
        exact absurd (hlonger ▸ hhost) hnot
      | cons d more =>
        have hdigit : ':' ∈ decimal n := by
          rw [List.cons_append, List.cons.injEq] at hrest
          rw [hrest.2]
          simp
        have := isDigit_of_mem_decimal hdigit
        cases this
    · cases more with
      | nil =>
        rw [List.append_nil] at hshorter
        exact absurd (hshorter ▸ hhost) hnot
      | cons d more =>
        rw [List.cons_append, List.cons.injEq] at hrest
        rw [hrest.2]
        exact readPort?_eq_none (fun c hc => hno c (by simp [hshorter, hc])) _

/-- **A text that spells no host is refused** if no sign in it moves the end of the host -/
theorem readAuthority?_eq_none {scheme s : List Char} (hscheme : isSpecial scheme = false)
    (hno : ∀ c ∈ s, c ∉ Host.movers) (hnot : ∀ h : Host, ¬ h.SpelledBy s) (n : Nat) :
    readAuthority? scheme (s ++ ':' :: decimal n) = none := by
  have hinside := isDelimiter_of_mem_port (Host.isDelimiter_of_not_mem_movers hno) n
  have hinfo : cutUserinfo? false (s ++ ':' :: decimal n) = some ([], s ++ ':' :: decimal n) := by
    have := cutUserinfo?_eq (List.forall_mem_nil _) hinside isPathText_nil
    rwa [List.append_nil, List.append_nil] at this
  obtain ⟨host, rest, hcut⟩ : ∃ host rest, cutHost false false (s ++ ':' :: decimal n) = (host, rest) := ⟨_, _, rfl⟩
  obtain ⟨htext, hends⟩ := cutHost_eq hcut
  -- nothing but a colon can have ended the host
  have hcolon : ∀ c, rest.head? = some c → c = ':' := by
    intro c hc
    have hmem : c ∈ s ++ ':' :: decimal n := by
      rw [htext]
      exact List.mem_append_right host (List.mem_of_head? hc)
    refine (hends c hc).resolve_right ?_
    rw [(Bool.or_eq_false_iff.1 (hinside c hmem)).1]
    exact Bool.false_ne_true
  simp only [readAuthority?, hscheme, hinfo, hcut, Option.bind_eq_bind, Option.bind_some]
  split
  · next hempty =>
    obtain rfl := List.isEmpty_iff.1 hempty
    obtain ⟨c, r, hr⟩ := List.exists_cons_of_ne_nil (l := rest) (by rintro rfl; simp at htext)
    obtain rfl := hcolon c (by rw [hr]; rfl)
    simp [hr]
  · next hfull =>
    cases hread : Host.readOpaque? host with
    | none => rfl
    | some h =>
      have hhost := (Host.readOpaque?_eq_some_iff (by simpa using hfull)).1 hread
      obtain ⟨r, rfl, hnone⟩ := exists_refusedPort hno (hnot h) hhost htext hcolon
      simp [hnone]

/-! ## Whole URLs -/

/-- a scheme in small letters without rules of its own -/
structure IsServerScheme (scheme : List Char) : Prop where
  nonempty : scheme ≠ []
  small : ∀ c ∈ scheme, c.isLower = true
  plain : isSpecial scheme = false

theorem isIgnored_of_all {t : List Char} (h : (t.all fun c => !isIgnored c) = true) : ∀ c ∈ t, isIgnored c = false := by
  simpa using h

theorem isIgnored_of_lt {c : Char} (h : 0x20 < c.toNat) : isIgnored c = false := by
  rw [← Bool.not_eq_true]
  intro hignored
  simp only [isIgnored, Bool.or_eq_true, beq_iff_eq] at hignored
  rcases hignored with (rfl | rfl) | rfl <;> simp at h

/-- behind such a scheme, the authority is read as it stands if nothing is cut off its end and every character counts -/
theorem parse?_eq {scheme t : List Char} (hscheme : IsServerScheme scheme)
    (hlast : ∀ c, t.getLast? = some c → 0x20 < c.toNat) (hcounts : ∀ c ∈ t, isIgnored c = false) :
    parse? (scheme ++ ("://".toList ++ t)) = readAuthority? scheme t := by
  have hletter {c : Char} (hc : c ∈ scheme) : 0x20 < c.toNat := by
    have := isLower_iff.1 (hscheme.small c hc)
    omega
  have htrim : trimWhile (·.toNat ≤ 0x20) (scheme ++ ("://".toList ++ t)) = scheme ++ ("://".toList ++ t) := by
    refine trimWhile_eq_self (fun c hc => ?_) (fun c hc => ?_)
    · obtain ⟨d, r, hd⟩ := List.exists_cons_of_ne_nil hscheme.nonempty
      rw [hd, List.cons_append, List.head?_cons, Option.some.injEq] at hc
      have := hletter (c := d) (hd ▸ List.mem_cons_self)
      simpa [← hc] using this
    · rw [List.getLast?_append, List.getLast?_append] at hc
      cases ht : t.getLast? with
      | none =>
        rw [ht] at hc
        cases hc
        rfl
      | some d =>
        have hd := hlast d ht
        rw [ht] at hc
        cases hc
        simpa using hd
  have hfilter : (scheme ++ ("://".toList ++ t)).filter (fun c => !isIgnored c) = scheme ++ ("://".toList ++ t) := by
    refine List.filter_eq_self.2 fun c hc => ?_
    rw [Bool.not_eq_true']
    rcases List.mem_append.1 hc with hc | hc
    · exact isIgnored_of_lt (hletter hc)
    · rcases List.mem_append.1 hc with hc | hc
      · exact isIgnored_of_all (by decide) c hc
      · exact hcounts c hc
  have hfile : ¬ (scheme == fileScheme) = true := by
    rw [(Bool.or_eq_false_iff.1 hscheme.plain).2]
    exact Bool.false_ne_true
  have hread := readScheme?_small hscheme.nonempty hscheme.small ('/' :: '/' :: t)
  have hcolon : scheme ++ ("://".toList ++ t) = scheme ++ ':' :: '/' :: '/' :: t := rfl
  rw [hcolon] at htrim hfilter ⊢
  simp only [parse?, htrim, hfilter, hread, if_neg hfile, hscheme.plain, Bool.false_eq_true, if_false]
  rfl

/-- the URL of a server, with each of its parts in the form that it is brought into -/
structure IsServerUrl (u : Url) : Prop where
  scheme : IsServerScheme u.scheme
  username : Percent.IsKept (fun b => !isOutsideUserinfo b) u.username
  password : Percent.IsKept (fun b => !isOutsideUserinfo b) u.password
  host : ∃ h s, u.host = some h ∧ h.SpelledBy s
  port : ∃ n ≤ 65535, u.port = some n
  path : IsNormal u.path
  query : u.query = none
  fragment : u.fragment = none

namespace IsServerUrl

variable {u : Url}

theorem isDelimiter_of_mem_info (hu : IsServerUrl u) : ∀ c ∈ u.info, isDelimiter c = false :=
  Url.isDelimiter_of_mem_info (isUserinfo_of_isKept hu.username) (isUserinfo_of_isKept hu.password)

theorem splitUserinfo_info (hu : IsServerUrl u) : splitUserinfo u.info = (u.username, u.password) := by
  have hname := escape_of_isKept hu.username
  have hpassword := escape_of_isKept hu.password
  have hcolon := (isUserinfo_of_isKept hu.username).1
  unfold splitUserinfo info
  cases hp : u.password with
  | nil => rw [List.isEmpty_nil, if_pos rfl, cutAt_eq_none_iff.2 hcolon, hname]
  | cons c r =>
    rw [hp] at hpassword
    rw [List.isEmpty_cons, if_neg Bool.false_ne_true, cutAt_append hcolon]
    simp only
    rw [hname, hpassword]

theorem lt_of_mem_info (hu : IsServerUrl u) : ∀ c ∈ u.info, 0x20 < c.toNat := by
  intro c hc
  have hkept {s : List Char} (hs : Percent.IsKept (fun b => !isOutsideUserinfo b) s) (hc : c ∈ s) : 0x20 < c.toNat := by
    refine lt_of_ne_blank (isEscapeSet_userinfo.le_of_isKept hs c hc) ?_
    rintro rfl
    exact not_mem_of_isKept hs (by decide) hc
  rcases mem_info hc with hc | rfl | hc
  · exact hkept hu.username hc
  · decide
  · exact hkept hu.password hc

end IsServerUrl

/-- **The text of a server's URL is read as that URL** -/
theorem parse?_text {u : Url} (hu : IsServerUrl u) : parse? u.text = some u := by
  obtain ⟨h, s, hhost, hs⟩ := hu.host
  obtain ⟨n, hn, hport⟩ := hu.port
  have hquery := hu.query
  have hfragment := hu.fragment
  have htext : u.text =
      u.scheme ++ ("://".toList ++ (beforeHost u.info ++ (h.text ++ ':' :: decimal n) ++ u.path)) := by
    simp [text_eq, userinfo_eq, location, tail, hhost, hport, hquery, hfragment]
  have hall : ∀ c ∈ beforeHost u.info ++ (h.text ++ ':' :: decimal n) ++ u.path, 0x20 < c.toNat := by
    simp only [List.mem_append, List.mem_cons]
    rintro c ((hc | hc | rfl | hc) | hc)
    · rcases mem_beforeHost hc with hc | rfl
      · exact hu.lt_of_mem_info c hc
      · decide
    · exact hs.lt_of_mem_text c hc
    · decide
    · exact lt_of_isDigit (isDigit_of_mem_decimal hc)
    · refine lt_of_ne_blank (isEscapeSet_path.le_of_isKept hu.path.kept c hc) ?_
      rintro rfl
      exact not_mem_of_isKept hu.path.kept (by decide) hc
  rw [htext, parse?_eq hu.scheme (fun c hc => hall c (List.mem_of_getLast? hc)) fun c hc => isIgnored_of_lt (hall c hc),
    readAuthority?_eq hu.scheme.plain hu.isDelimiter_of_mem_info hs.text hn hu.path.isPathText, hu.splitUserinfo_info,
    normalizePath_of_isNormal hu.path]
  refine congrArg some ?_
  cases u
  simp only at hhost hport hquery hfragment
  rw [hhost, hport, hquery, hfragment]

end SheetPost.Url
