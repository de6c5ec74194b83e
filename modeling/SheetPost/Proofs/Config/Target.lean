/-
Where the URL of a database leads. The host is pasted into the text of a URL before that text is read, so a sign in it
that another part begins or ends with moves the end of the host; the name of the database goes through the rules of
paths, where escapes are resolved and dot segments are taken out.

Main statement: the URL leads to the server and the database of the settings just if the host is plain and the name is
plain; a plain host is always led to, and one that is not is refused if no sign in it moves its end
(`connectionUrl_leads_iff`).
-/
import SheetPost.Proofs.Config.Account
import SheetPost.Proofs.Url.Reading

namespace SheetPost.Database

open SheetPost.Text

/-! ## What the settings mean -/

/-- the host is a name without signs of other parts, or an IPv6 address in brackets -/
def PlainHost (d : Database) : Prop := ∃ h : Url.Host, h.SpelledBy d.host.toList

/-- the path of the database, if it has a name, comes out of a URL as it is -/
def PlainName (d : Database) : Prop := ∀ path, d.path? = some path → Url.IsPlainPath path

/-- the URL leads to the server: its host is what the host of the settings spells, its port is theirs, and nothing stands
behind the path -/
structure AtServer (d : Database) (u : Url) : Prop where
  host : ∃ h, u.host = some h ∧ h.SpelledBy d.host.toList
  port : u.port = some d.port
  query : u.query = none
  fragment : u.fragment = none

/-- the path resolves to a slash and the name without slashes in front, and is empty without a name -/
def AtDatabase (d : Database) (u : Url) : Prop :=
  match d.path? with
  | none => u.path = []
  | some path => Percent.decode u.path = Utf8.encode path

theorem path?_eq_some {d : Database} {path : List Char} (h : d.path? = some path) : ∃ r, path = '/' :: r := by
  obtain ⟨name, -, rfl⟩ := Option.map_eq_some_iff.1 h
  exact ⟨_, rfl⟩

/-! ## Plain hosts -/

/-- the URL of a plain host -/
def target (d : Database) (h : Url.Host) : Url where
  scheme := d.driver.toList
  username := Url.escape Url.isOutsideUserinfo d.username.toList
  password := Url.escape Url.isOutsideUserinfo d.password.toList
  host := some h
  port := some d.port
  path := (d.path?.map fun path => Url.normalizePath false (path.filter fun c => !Url.isIgnored c)).getD []
  query := none
  fragment := none

variable {d : Database}

theorem isServerScheme_driver (hdriver : d.driver = "postgres" ∨ d.driver = "mysql") :
    Url.IsServerScheme d.driver.toList := by
  rcases hdriver with h | h
  · rw [h]
    exact ⟨by decide, List.all_eq_true.1 (by decide), by decide⟩
  · rw [h]
    exact ⟨by decide, List.all_eq_true.1 (by decide), by decide⟩

theorem not_isFile (hdriver : d.driver = "postgres" ∨ d.driver = "mysql") : ¬ d.isFile = true := by
  rcases hdriver with h | h
  · simp [isFile, h, fileDriver]
  · simp [isFile, h, fileDriver]

theorem parse?_address (hscheme : Url.IsServerScheme d.driver.toList)
    (hcounts : ∀ c ∈ d.host.toList, Url.isIgnored c = false) :
    Url.parse? d.address = Url.readAuthority? d.driver.toList (d.host.toList ++ ':' :: decimal d.port) := by
  have haddress : d.address = d.driver.toList ++ ("://".toList ++ (d.host.toList ++ ':' :: decimal d.port)) := by
    simp [address]
  rw [haddress, Url.parse?_eq hscheme]
  · exact fun c hc => Url.lt_of_isDigit (Url.isDigit_of_getLast? hc)
  · intro c hc
    rcases List.mem_append.1 hc with hc | hc
    · exact hcounts c hc
    · rcases List.mem_cons.1 hc with rfl | hc
      · decide
      · exact Url.isIgnored_of_lt (Url.lt_of_isDigit (Url.isDigit_of_mem_decimal hc))

theorem url?_eq {h : Url.Host} (hscheme : Url.IsServerScheme d.driver.toList) (hh : h.SpelledBy d.host.toList)
    (hport : d.port ≤ 65535) : d.url? = .ok (d.target h) := by
  have hauthority := Url.readAuthority?_eq hscheme.plain (List.forall_mem_nil _) hh hport Url.isPathText_nil
  rw [Url.beforeHost, List.isEmpty_nil, if_pos rfl, List.nil_append, List.append_nil] at hauthority
  have hread := parse?_address hscheme (Url.Host.isIgnored_of_not_mem_movers hh.not_mem_movers)
  rw [hauthority] at hread
  have hfile : (d.driver.toList != Url.fileScheme) = true := by
    have := (Bool.or_eq_false_iff.1 hscheme.plain).2
    simp [bne, this]
  simp only [url?, hread, orFault, bind, Except.bind, Url.withUsername?, Url.withPassword?, Url.canHaveUser,
    Option.isSome_some, hfile, Bool.and_self, if_true, target]
  cases d.path? with
  | none => rfl
  | some path => simp [Url.setPath, hscheme.plain, pure, Except.pure]

theorem isServerUrl_target {h : Url.Host} (hscheme : Url.IsServerScheme d.driver.toList)
    (hh : h.SpelledBy d.host.toList) (hport : d.port ≤ 65535) : Url.IsServerUrl (d.target h) where
  scheme := hscheme
  username := Url.isEscapeSet_userinfo.isKept_escape _
  password := Url.isEscapeSet_userinfo.isKept_escape _
  host := ⟨h, _, rfl, hh⟩
  port := ⟨_, hport, rfl⟩
  path := by
    unfold target
    cases d.path? with
    | none => exact Url.isNormal_normalizePath []
    | some path => exact Url.isNormal_normalizePath _
  query := rfl
  fragment := rfl

theorem atServer_target {h : Url.Host} (hh : h.SpelledBy d.host.toList) : d.AtServer (d.target h) :=
  ⟨⟨h, rfl, hh⟩, rfl, rfl, rfl⟩

theorem atDatabase_target_iff (h : Url.Host) : d.AtDatabase (d.target h) ↔ d.PlainName := by
  unfold AtDatabase PlainName target
  cases hpath : d.path? with
  | none => simp
  | some path =>
    obtain ⟨r, rfl⟩ := path?_eq_some hpath
    simpa using Url.decode_normalizePath_iff r

/-- **The URL of a plain host**: it is given out, and read as it was meant -/
theorem connectionUrl_of_spelledBy {h : Url.Host} (hdriver : d.driver = "postgres" ∨ d.driver = "mysql")
    (hh : h.SpelledBy d.host.toList) (hport : d.port ≤ 65535) :
    d.connectionUrl = .ok (String.ofList (d.target h).text) ∧
      Url.parse? (String.ofList (d.target h).text).toList = some (d.target h) := by
  have hscheme := isServerScheme_driver hdriver
  refine ⟨?_, ?_⟩
  · rw [connectionUrl, if_neg (not_isFile hdriver), url?_eq hscheme hh hport]
    rfl
  · rw [String.toList_ofList]
    exact Url.parse?_text (isServerUrl_target hscheme hh hport)

/-! ## Other hosts -/

theorem connectionUrl_of_not_plainHost (hdriver : d.driver = "postgres" ∨ d.driver = "mysql") (hnot : ¬ d.PlainHost)
    (hno : ∀ c ∈ d.host.toList, c ∉ Url.Host.movers) : d.connectionUrl = .error (.invalid .hostName) := by
  have hscheme := isServerScheme_driver hdriver
  have hread : Url.parse? d.address = none := by
    rw [parse?_address hscheme (Url.Host.isIgnored_of_not_mem_movers hno)]
    exact Url.readAuthority?_eq_none hscheme.plain hno (fun h hh => hnot ⟨h, hh⟩) d.port
  rw [connectionUrl, if_neg (not_isFile hdriver), url?, hread]
  rfl

/-- **Where the URL of a server leads**: to the server and the database of the settings just if the host and the name
are plain. A plain host is always led to, whatever the database is called. Any other host is refused, unless a sign in
it moves its end. -/
theorem connectionUrl_leads_iff (hdriver : d.driver = "postgres" ∨ d.driver = "mysql") (hport : d.port ≤ 65535) :
    (∀ url, d.connectionUrl = .ok url →
      ((∃ u, Url.parse? url.toList = some u ∧ d.AtServer u ∧ d.AtDatabase u) ↔ d.PlainHost ∧ d.PlainName)) ∧
    (d.PlainHost → ∃ url u, d.connectionUrl = .ok url ∧ Url.parse? url.toList = some u ∧ d.AtServer u) ∧
    (¬ d.PlainHost → (∀ c ∈ d.host.toList, c ∉ Url.Host.movers) → d.connectionUrl = .error (.invalid .hostName)) := by
  refine ⟨fun url hurl => ⟨fun h => ?_, fun h => ?_⟩, fun h => ?_, connectionUrl_of_not_plainHost hdriver⟩
  · obtain ⟨u, hread, hserver, hdatabase⟩ := h
    obtain ⟨h, -, hh⟩ := hserver.host
    obtain ⟨hgiven, htext⟩ := connectionUrl_of_spelledBy hdriver hh hport
    obtain rfl := Except.ok.inj (hurl.symm.trans hgiven)
    obtain rfl := Option.some.inj (hread.symm.trans htext)
    exact ⟨⟨h, hh⟩, (atDatabase_target_iff h).1 hdatabase⟩
  · obtain ⟨⟨h, hh⟩, hname⟩ := h
    obtain ⟨hgiven, htext⟩ := connectionUrl_of_spelledBy hdriver hh hport
    obtain rfl := Except.ok.inj (hurl.symm.trans hgiven)
    exact ⟨d.target h, htext, atServer_target hh, (atDatabase_target_iff h).2 hname⟩
  · obtain ⟨h, hh⟩ := h
    obtain ⟨hgiven, htext⟩ := connectionUrl_of_spelledBy hdriver hh hport
    exact ⟨_, d.target h, hgiven, htext, atServer_target hh⟩

/-- an IPv6 address is a plain host, in any of its spellings, and a blank in a name is no sign of another part -/
theorem connectionUrl_leads_ipv6 :
    connectionUrl ⟨"mysql", "[2001:DB8:0:0::1]", 3306, "root", "p", some "/sales 2026"⟩ =
      .ok "mysql://root:p@[2001:db8::1]:3306/sales%202026" ∧
    ∃ u, Url.parse? "mysql://root:p@[2001:db8::1]:3306/sales%202026".toList = some u ∧
      AtServer ⟨"mysql", "[2001:DB8:0:0::1]", 3306, "root", "p", some "/sales 2026"⟩ u ∧
      AtDatabase ⟨"mysql", "[2001:DB8:0:0::1]", 3306, "root", "p", some "/sales 2026"⟩ u := by
  have hurl : connectionUrl ⟨"mysql", "[2001:DB8:0:0::1]", 3306, "root", "p", some "/sales 2026"⟩ =
      .ok "mysql://root:p@[2001:db8::1]:3306/sales%202026" := by decide +kernel
  have hhost : PlainHost ⟨"mysql", "[2001:DB8:0:0::1]", 3306, "root", "p", some "/sales 2026"⟩ := by
    have hread : Net.readIpv6? "2001:DB8:0:0::1".toList = some [0x2001, 0xDB8, 0, 0, 0, 0, 0, 1] := by decide +kernel
    have hbrackets : "[2001:DB8:0:0::1]".toList = '[' :: ("2001:DB8:0:0::1".toList ++ [']']) := by decide
    refine ⟨.ipv6 [0x2001, 0xDB8, 0, 0, 0, 0, 0, 1], ?_⟩
    rw [hbrackets]
    exact .ipv6 hread
  have hname : PlainName ⟨"mysql", "[2001:DB8:0:0::1]", 3306, "root", "p", some "/sales 2026"⟩ := by
    have hpath : path? ⟨"mysql", "[2001:DB8:0:0::1]", 3306, "root", "p", some "/sales 2026"⟩ =
        some "/sales 2026".toList := by decide +kernel
    intro path h
    obtain rfl := Option.some.inj (hpath.symm.trans h)
    exact ⟨(Percent.unescape_eq_encode_iff _).1 (by decide +kernel), Url.isIgnored_of_all (by decide), by decide⟩
  exact ⟨hurl, ((connectionUrl_leads_iff (.inr rfl) (by decide)).1 _ hurl).2 ⟨hhost, hname⟩⟩

/-- a slash moves the end of the host, and an escape in a name is resolved -/
theorem connectionUrl_leads_elsewhere :
    connectionUrl ⟨"postgres", "h/x", 5432, "u", "p", none⟩ = .ok "postgres://u:p@h/x:5432" ∧
    (Url.parse? "postgres://u:p@h/x:5432".toList).map (fun u => (u.host, u.port, u.path)) =
      some (some (.name "h".toList), none, "/x:5432".toList) ∧
    connectionUrl ⟨"postgres", "h", 5432, "u", "p", some "%41"⟩ = .ok "postgres://u:p@h:5432/%41" ∧
    (Url.parse? "postgres://u:p@h:5432/%41".toList).map (fun u => Percent.decode u.path) =
      some (Utf8.encode "/A".toList) := by
  decide +kernel

end SheetPost.Database
