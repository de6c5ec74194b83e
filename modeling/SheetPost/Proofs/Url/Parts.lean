/-
Where the signs that divide a URL can stand: the parts of a URL that was read hold none of those that would end the
authority or a user name. Its text can therefore be divided again, whatever user name and password are put into it.

Main statements: the parts (`divided_of_parse?`), a scheme in small letters, which is read as it stands
(`scheme_of_parse?_small`), and the account in the text (`account?_text`).
-/
import Mathlib.Data.List.Basic
import SheetPost.Proofs.Text.Letter
import SheetPost.Proofs.Text.Search
import SheetPost.Proofs.Text.Trim
import SheetPost.Proofs.Url.Path
import SheetPost.Url.Account

namespace SheetPost.Url

open SheetPost.Text

/-- a sign that ends an authority, or what stands before its host -/
def isDelimiter (c : Char) : Bool := endsAuthority false c || c == '@'

/-! ## Hosts -/

theorem exists_of_mem_toDigits {base n : Nat} (hb : 1 < base) {c : Char} (h : c ∈ Nat.toDigits base n) :
    ∃ d < base, c = Nat.digitChar d := by
  induction n using Nat.strongRecOn with
  | _ n ih =>
    by_cases hn : n < base
    · rw [Nat.toDigits_of_lt_base hn, List.mem_singleton] at h
      exact ⟨n, hn, h⟩
    · have hpos : 0 < n / base := Nat.div_pos (Nat.le_of_not_lt hn) (by omega)
      have hmod : n % base < base := Nat.mod_lt _ (by omega)
      rw [← Nat.div_add_mod n base, ← Nat.toDigits_append_toDigits hb hpos hmod, List.mem_append] at h
      rcases h with h | h
      · exact ih (n / base) (Nat.div_lt_self (by omega) hb) h
      · rw [Nat.toDigits_of_lt_base hmod, List.mem_singleton] at h
        exact ⟨n % base, hmod, h⟩

theorem isDelimiter_digitChar {d : Nat} (h : d < 16) : isDelimiter (Nat.digitChar d) = false := by
  have : ∀ m : Fin 16, isDelimiter (Nat.digitChar m) = false := by decide
  exact this ⟨d, h⟩

theorem isDelimiter_of_mem_toDigits {base n : Nat} (hb : 1 < base) (hle : base ≤ 16) {c : Char}
    (h : c ∈ Nat.toDigits base n) : isDelimiter c = false := by
  obtain ⟨d, hd, rfl⟩ := exists_of_mem_toDigits hb h
  exact isDelimiter_digitChar (by omega)

theorem isDelimiter_of_mem_writeGroups {gs : Net.Groups} {c : Char} (h : c ∈ Net.writeGroups gs) :
    isDelimiter c = false := by
  rcases mem_join h with h | ⟨p, hp, h⟩
  · rw [List.mem_singleton.1 h]
    decide
  · obtain ⟨n, -, rfl⟩ := List.mem_map.1 hp
    exact isDelimiter_of_mem_toDigits (by decide) (by decide) h

theorem isDelimiter_of_mem_writeIpv6 {gs : Net.Groups} {c : Char} (h : c ∈ Net.writeIpv6 gs) :
    isDelimiter c = false := by
  unfold Net.writeIpv6 at h
  split at h
  · exact isDelimiter_of_mem_writeGroups h
  · simp only [List.mem_append, List.mem_cons] at h
    rcases h with h | rfl | rfl | h
    · exact isDelimiter_of_mem_writeGroups h
    · decide
    · decide
    · exact isDelimiter_of_mem_writeGroups h

theorem isDelimiter_of_mem_writeIpv4 {octets : List Nat} {c : Char} (h : c ∈ Net.writeIpv4 octets) :
    isDelimiter c = false := by
  rcases mem_join h with h | ⟨p, hp, h⟩
  · rw [List.mem_singleton.1 h]
    decide
  · obtain ⟨n, -, rfl⟩ := List.mem_map.1 hp
    exact isDelimiter_of_mem_toDigits (by decide) (by decide) h

theorem isDelimiter_iff {c : Char} : isDelimiter c = true ↔ c = '/' ∨ c = '?' ∨ c = '#' ∨ c = '@' := by
  simp [isDelimiter, endsAuthority, or_assoc]

/-- no sign that divides stands in the host -/
def Host.Undivided (h : Host) : Prop := ∀ c ∈ h.text, isDelimiter c = false

theorem undivided_of_readBracketed? {s : List Char} {h : Host} (hs : Host.readBracketed? s = some h) :
    h.Undivided := by
  unfold Host.readBracketed? at hs
  split at hs
  · obtain ⟨groups, -, rfl⟩ := Option.map_eq_some_iff.1 hs
    intro c hc
    simp only [Host.text, List.mem_cons, List.mem_append, List.not_mem_nil, or_false] at hc
    rcases hc with rfl | hc | rfl
    · decide
    · exact isDelimiter_of_mem_writeIpv6 hc
    · decide
  · cases hs

theorem undivided_of_readOpaque? {s : List Char} {h : Host} (hs : Host.readOpaque? s = some h) : h.Undivided := by
  unfold Host.readOpaque? at hs
  split at hs
  · exact undivided_of_readBracketed? hs
  · split at hs
    · cases hs
    · next hsep =>
      cases hs
      intro c hc
      rw [← Bool.not_eq_true]
      intro hd
      -- such a sign is not written by an escape, so it stood in the host before
      have hmem : c ∈ s := by
        refine (isEscapeSet_control.mem_of_mem_escape hc ?_ ?_).1
        · rcases isDelimiter_iff.1 hd with rfl | rfl | rfl | rfl <;> decide
        · rcases isDelimiter_iff.1 hd with rfl | rfl | rfl | rfl <;> decide
      refine hsep (List.any_eq_true.2 ⟨c, hmem, ?_⟩)
      rcases isDelimiter_iff.1 hd with rfl | rfl | rfl | rfl <;> decide

theorem undivided_of_readIpv4? {s : List Char} {h : Host} (hs : Host.readIpv4? s = some h) : h.Undivided := by
  unfold Host.readIpv4? at hs
  split at hs
  · simp only at hs
    split at hs
    · cases hs
    · cases hs
      exact fun c hc => isDelimiter_of_mem_writeIpv4 hc
  · cases hs

theorem undivided_of_readSpecial? {s : List Char} {h : Host} (hs : Host.readSpecial? s = some h) : h.Undivided := by
  unfold Host.readSpecial? at hs
  split at hs
  · exact undivided_of_readBracketed? hs
  · split at hs
    · cases hs
    · simp only at hs
      split at hs
      · cases hs
      · next hforbidden =>
        split at hs
        · exact undivided_of_readIpv4? hs
        · cases hs
          intro c hc
          rw [← Bool.not_eq_true]
          intro hd
          refine hforbidden (Bool.or_eq_true_iff.2 (.inr (List.any_eq_true.2 ⟨c, hc, ?_⟩)))
          rcases isDelimiter_iff.1 hd with rfl | rfl | rfl | rfl <;> decide

/-! ## URLs that were read -/

/-- no sign that divides stands within a part -/
structure Divided (u : Url) : Prop where
  scheme : ':' ∉ u.scheme
  host : ∀ h, u.host = some h → h.Undivided
  path : u.path = [] ∨ u.path.head? = some '/'

theorem toLower_ne_colon {c : Char} (h : c ≠ ':') : c.toLower ≠ ':' := by
  rcases toLower_cases c with ⟨hupper, hlower⟩ | ⟨-, hc⟩
  · rw [isUpper_iff] at hupper
    intro he
    rw [he] at hlower
    have hcolon : ':'.toNat = 58 := rfl
    omega
  · rwa [hc]

theorem colon_not_mem_readScheme? {s scheme rest : List Char} (h : readScheme? s = some (scheme, rest)) :
    ':' ∉ scheme := by
  unfold readScheme? at h
  split at h
  · next c r rest' hcut =>
    obtain ⟨-, hnot⟩ := cutAt_eq_some hcut
    split at h
    · cases h
      intro hm
      obtain ⟨x, hx, hlower⟩ := List.mem_map.1 hm
      have hne : x ≠ ':' := by
        intro hx'
        exact hnot (hx' ▸ hx)
      exact toLower_ne_colon hne hlower
    · cases h
  · cases h

/-- the URL has the scheme, a host without a dividing sign, if it has one, and a path that was read behind them -/
def ReadWith (scheme : List Char) (u : Url) : Prop :=
  ∃ (front : Url) (path : List Char), u = front.withPath path ∧ front.scheme = scheme ∧
    ∀ h, front.host = some h → h.Undivided

theorem ReadWith.scheme_eq {scheme : List Char} {u : Url} (h : ReadWith scheme u) : u.scheme = scheme := by
  obtain ⟨front, path, rfl, rfl, -⟩ := h
  rfl

/-- path, query and fragment leave the parts before them as they are -/
theorem ReadWith.divided {scheme : List Char} {u : Url} (h : ReadWith scheme u) (hscheme : ':' ∉ scheme) :
    u.Divided := by
  obtain ⟨front, path, rfl, rfl, hhost⟩ := h
  exact ⟨hscheme, hhost, head?_normalizePath _ _⟩

theorem readWith_withoutHost (scheme s : List Char) : ReadWith scheme (withoutHost scheme s) :=
  ⟨_, s, rfl, rfl, fun _ he => by cases he⟩

theorem readWith_of_readAuthority? {scheme s : List Char} {u : Url} (h : readAuthority? scheme s = some u) :
    ReadWith scheme u := by
  unfold readAuthority? at h
  simp only [Option.bind_eq_bind, Option.bind_eq_some_iff] at h
  obtain ⟨⟨info, rest⟩, -, h⟩ := h
  simp only at h
  split at h
  · split at h
    · cases h
    · cases h
      exact ⟨_, _, rfl, rfl, fun _ he => by cases he⟩
  · -- with either kind of host, port and path are read behind it
    have hbehind {host : Host} {port : Option Nat} (hhost : host.Undivided) (path : List Char) :
        ReadWith scheme (withPath ⟨scheme, (splitUserinfo info).1, (splitUserinfo info).2, some host, port, [], none,
          none⟩ path) := by
      refine ⟨_, path, rfl, rfl, fun _ he => ?_⟩
      cases he
      exact hhost
    split at h
    all_goals
      rw [Option.bind_eq_some_iff] at h
      obtain ⟨host, hhost, h⟩ := h
      split at h
      all_goals
        rw [Option.bind_eq_some_iff] at h
        obtain ⟨⟨port, path⟩, -, h⟩ := h
        cases h
    · exact hbehind (undivided_of_readSpecial? hhost) path
    · exact hbehind (undivided_of_readSpecial? hhost) path
    · exact hbehind (undivided_of_readOpaque? hhost) path
    · exact hbehind (undivided_of_readOpaque? hhost) path

theorem readWith_of_readFile? {s : List Char} {u : Url} (h : readFile? s = some u) : ReadWith fileScheme u := by
  unfold readFile? at h
  simp only at h
  split at h
  · cases h
    exact readWith_withoutHost fileScheme s
  · obtain ⟨host, hhost, rfl⟩ := Option.map_eq_some_iff.1 h
    refine ⟨_, _, rfl, rfl, fun _ he => ?_⟩
    simp only at he
    split at he
    · cases he
    · cases he
      exact undivided_of_readSpecial? hhost

/-- a URL is read behind its scheme -/
theorem exists_readWith_of_parse? {s : List Char} {u : Url} (h : parse? s = some u) :
    ∃ scheme rest, readScheme? ((trimWhile (·.toNat ≤ 0x20) s).filter fun c => !isIgnored c) = some (scheme, rest) ∧
      ReadWith scheme u := by
  unfold parse? at h
  simp only at h
  split at h
  · cases h
  · next scheme rest hread =>
    refine ⟨scheme, rest, hread, ?_⟩
    have hno (hv : some (withoutHost scheme rest) = some u) : ReadWith scheme u := by
      cases hv
      exact readWith_withoutHost scheme rest
    split at h
    · next hfile =>
      split at h
      · split at h
        · exact beq_iff_eq.1 hfile ▸ readWith_of_readFile? h
        · exact hno h
      · exact hno h
    · split at h
      · exact readWith_of_readAuthority? h
      · split at h
        · exact readWith_of_readAuthority? h
        · exact hno h

/-- **The parts of a URL that was read are divided** -/
theorem divided_of_parse? {s : List Char} {u : Url} (h : parse? s = some u) : u.Divided := by
  obtain ⟨scheme, rest, hread, hu⟩ := exists_readWith_of_parse? h
  exact hu.divided (colon_not_mem_readScheme? hread)

/-! ## The scheme in the text -/

/-- a scheme is read as it stands if it is written in small letters -/
theorem readScheme?_small {scheme : List Char} (hne : scheme ≠ []) (hsmall : ∀ c ∈ scheme, c.isLower = true)
    (rest : List Char) : readScheme? (scheme ++ ':' :: rest) = some (scheme, rest) := by
  have hcolon : ':' ∉ scheme := fun h => absurd (hsmall ':' h) (by decide)
  have hascii {c : Char} (hc : c ∈ scheme) : c.toNat < 0x80 := by
    have := isLower_iff.1 (hsmall c hc)
    omega
  have halpha {c : Char} (hc : c ∈ scheme) : c.isAlpha = true := isAlpha_iff.2 (.inr (hsmall c hc))
  have hlower : scheme.map Char.toLower = scheme := by
    refine (List.map_congr_left fun c hc => ?_).trans (List.map_id scheme)
    rcases toLower_cases c with ⟨hupper, -⟩ | ⟨-, hsame⟩
    · have := isUpper_iff.1 hupper
      have := isLower_iff.1 (hsmall c hc)
      omega
    · exact hsame
  obtain ⟨c, r, rfl⟩ := List.exists_cons_of_ne_nil hne
  rw [readScheme?, cutAt_append hcolon]
  simp only
  rw [if_pos, hlower]
  rw [Bool.and_eq_true, Bool.and_eq_true, List.all_eq_true, decide_eq_true_eq]
  refine ⟨⟨hascii List.mem_cons_self, halpha List.mem_cons_self⟩, fun x hx => ?_⟩
  have hx := List.mem_cons_of_mem c hx
  simp [hascii hx, isAlphanum_iff.2 (.inl (halpha hx))]

/-- nothing that is done to a text before it is read concerns such a scheme -/
theorem scheme_of_parse?_small {scheme rest : List Char} {u : Url} (hne : scheme ≠ [])
    (hsmall : ∀ c ∈ scheme, c.isLower = true) (h : parse? (scheme ++ ':' :: rest) = some u) : u.scheme = scheme := by
  obtain ⟨read, rest', hread, hu⟩ := exists_readWith_of_parse? h
  have hclean {c : Char} (hc : c ∈ scheme) : decide (c.toNat ≤ 0x20) = false := by
    have := isLower_iff.1 (hsmall c hc)
    exact decide_eq_false (by omega)
  have hkept : scheme.filter (fun c => !isIgnored c) = scheme := by
    refine List.filter_eq_self.2 fun c hc => ?_
    have hlow := isLower_iff.1 (hsmall c hc)
    rw [Bool.not_eq_true', ← Bool.not_eq_true]
    intro hignored
    simp only [isIgnored, Bool.or_eq_true, beq_iff_eq] at hignored
    rcases hignored with (rfl | rfl) | rfl <;> simp at hlow
  rw [trimWhile_append_cons (fun c hc => hclean hc) (by decide), List.filter_append,
    List.filter_cons_of_pos (by decide), hkept, readScheme?_small hne hsmall] at hread
  cases hread
  exact hu.scheme_eq

/-! ## The account in the text -/

/-- path, query and fragment -/
def tail (u : Url) : List Char :=
  u.path ++ (((u.query.map ('?' :: ·)).getD []) ++ ((u.fragment.map ('#' :: ·)).getD []))

/-- host and port -/
def location (u : Url) : List Char := ((u.host.map Host.text).getD []) ++ ((u.port.map fun n => ':' :: decimal n).getD [])

theorem text_eq (u : Url) : u.text = u.scheme ++ ("://".toList ++ (u.userinfo ++ u.location ++ u.tail)) := by
  simp [text, location, tail]

theorem Divided.ends_of_head?_tail {u : Url} (hu : u.Divided) {c : Char} (h : u.tail.head? = some c) :
    endsAuthority false c = true := by
  unfold tail at h
  rcases hu.path with hpath | hpath
  · rw [hpath, List.nil_append] at h
    cases hq : u.query with
    | some q =>
      rw [hq] at h
      cases h
      rfl
    | none =>
      cases hf : u.fragment with
      | some f =>
        rw [hq, hf] at h
        cases h
        rfl
      | none =>
        rw [hq, hf] at h
        cases h
  · rw [List.head?_append, hpath, Option.some_or] at h
    cases h
    rfl

theorem Divided.isDelimiter_of_mem_location {u : Url} (hu : u.Divided) {c : Char} (h : c ∈ u.location) :
    isDelimiter c = false := by
  unfold location at h
  rcases List.mem_append.1 h with h | h
  · cases hh : u.host with
    | none =>
      rw [hh] at h
      cases h
    | some host =>
      rw [hh] at h
      exact hu.host host hh c h
  · cases hp : u.port with
    | none =>
      rw [hp] at h
      cases h
    | some n =>
      rw [hp] at h
      rcases List.mem_cons.1 h with rfl | h
      · decide
      · exact isDelimiter_of_mem_toDigits (by decide) (by decide) h

/-- the text can stand as a user name or a password -/
def IsUserinfo (s : List Char) : Prop := ':' ∉ s ∧ ∀ c ∈ s, isDelimiter c = false

theorem isUserinfo_of_isKept {s : List Char} (h : Percent.IsKept (fun b => !isOutsideUserinfo b) s) : IsUserinfo s := by
  refine ⟨not_mem_of_isKept h (by decide), fun c hc => ?_⟩
  rw [← Bool.not_eq_true]
  intro hd
  rcases isDelimiter_iff.1 hd with rfl | rfl | rfl | rfl
  all_goals exact not_mem_of_isKept h (by decide) hc

/-- user name and password without the `@` behind them -/
def info (u : Url) : List Char := if u.password.isEmpty then u.username else u.username ++ ':' :: u.password

theorem mem_info {u : Url} {c : Char} (h : c ∈ u.info) : c ∈ u.username ∨ c = ':' ∨ c ∈ u.password := by
  unfold info at h
  split at h
  · exact .inl h
  · simpa using h

theorem isDelimiter_of_mem_info {u : Url} (hname : IsUserinfo u.username) (hpassword : IsUserinfo u.password) :
    ∀ c ∈ u.info, isDelimiter c = false := by
  intro c hc
  rcases mem_info hc with hc | rfl | hc
  · exact hname.2 c hc
  · decide
  · exact hpassword.2 c hc

/-- what stands before a host: nothing, or a user with the `@` behind -/
def beforeHost (info : List Char) : List Char := if info.isEmpty then [] else info ++ ['@']

theorem mem_beforeHost {info : List Char} {c : Char} (h : c ∈ beforeHost info) : c ∈ info ∨ c = '@' := by
  unfold beforeHost at h
  split at h
  · cases h
  · simpa using h

theorem userinfo_eq (u : Url) : u.userinfo = beforeHost u.info := by
  unfold userinfo beforeHost info
  cases u.password with
  | nil => simp
  | cons c r => simp

/-- an authority goes up to the first sign that ends it -/
theorem takeWhile_authority {info location rest : List Char} (hinfo : ∀ c ∈ info, isDelimiter c = false)
    (hlocation : ∀ c ∈ location, isDelimiter c = false)
    (hrest : ∀ c, rest.head? = some c → endsAuthority false c = true) :
    (beforeHost info ++ location ++ rest).takeWhile (fun c => !endsAuthority false c) = beforeHost info ++ location := by
  have hinside {c : Char} (hc : isDelimiter c = false) : (!endsAuthority false c) = true := by
    rw [(Bool.or_eq_false_iff.1 hc).1]
    rfl
  refine takeWhile_append (fun c hc => ?_) fun c hc => by rw [hrest c hc]; rfl
  rcases List.mem_append.1 hc with hc | hc
  · rcases mem_beforeHost hc with hc | rfl
    · exact hinside (hinfo c hc)
    · rfl
  · exact hinside (hlocation c hc)

theorem authority?_text {u : Url} (hu : u.Divided) (hname : IsUserinfo u.username) (hpassword : IsUserinfo u.password)
    (hne : u.username ≠ [] ∨ u.password ≠ []) : authority? u.text = some (u.info ++ '@' :: u.location) := by
  have hcut : cutAtText "://".toList u.text = some (u.scheme, u.userinfo ++ u.location ++ u.tail) := by
    rw [text_eq]
    refine cutAtText_append (by decide) fun h => hu.scheme (h.subset List.mem_cons_self)
  have hinfo : beforeHost u.info = u.info ++ ['@'] := by
    have hfull : ¬ u.info.isEmpty = true := by
      unfold info
      cases hp : u.password with
      | nil => simpa [hp] using hne
      | cons c r => simp
    rw [beforeHost, if_neg hfull]
  rw [authority?, hcut, Option.map_some]
  simp only
  rw [userinfo_eq, takeWhile_authority (isDelimiter_of_mem_info hname hpassword)
    (fun c hc => hu.isDelimiter_of_mem_location hc) fun c hc => hu.ends_of_head?_tail hc, hinfo, List.append_assoc]
  rfl

/-- **The account in the text of a URL** is the user name and the password with their escapes resolved -/
theorem account?_text {u : Url} (hu : u.Divided) (hname : IsUserinfo u.username) (hpassword : IsUserinfo u.password)
    (hne : u.username ≠ [] ∨ u.password ≠ []) :
    account? u.text = some (Percent.decode u.username, Percent.decode u.password) := by
  have hat : '@' ∉ u.location := by
    intro h
    have := hu.isDelimiter_of_mem_location h
    cases this
  have hlast : cutAtLast '@' (u.info ++ '@' :: u.location) = some (u.info, u.location) :=
    cutAtLast_eq_some_iff.2 ⟨rfl, hat⟩
  rw [account?, authority?_text hu hname hpassword hne, Option.bind_some, hlast]
  simp only
  unfold info
  cases hp : u.password with
  | nil =>
    rw [List.isEmpty_nil, if_pos rfl, cutAt_eq_none_iff.2 hname.1]
    rfl
  | cons c r =>
    rw [List.isEmpty_cons, if_neg Bool.false_ne_true, cutAt_append hname.1]

end SheetPost.Url
