/-
Which fault of a configuration is reported. Every setting that is looked at has a place, and the places are numbered as
the sections of a text are: the mail server, the database, the posts one by one, the time, and the schedule that the
time writes. Within a post come the sender, the recipients and the attachments one by one, the table of each before its
file name. Several places may be wrong at once; the first one counts.

Main statement: a configuration is valid just if it is usable, and else the first wrong place is reported, unless the
sum of an interval ends the program (`validate_exact`).
-/
import Mathlib.Data.List.Basic
import Mathlib.Data.List.Forall2
import SheetPost.Config.Validity
import SheetPost.Proofs.Text.Trim

namespace SheetPost

open SheetPost.Text

/-! ## What is asked for -/

/-- something is left of the text without the blanks at its ends -/
def Named (s : String) : Prop := trim s.toList ≠ []

/-- an account has a name and a password, which may be blank -/
def HasAccount (username password : String) : Prop := Named username ∧ password ≠ ""

/-- an attachment has a table and a file name -/
structure TableFile.Usable (a : TableFile) : Prop where
  table : Named a.table
  excel : Named a.excel

/-- a post has a sender, somebody to go to, and usable attachments -/
structure Post.Usable (p : Post) : Prop where
  sender : Named p.sender
  someone : p.recipients ≠ []
  recipients : ∀ r ∈ p.recipients, Named r
  attachments : ∀ a ∈ p.attachments, a.Usable

/-- a configuration that can be used; a database that is a file needs no port and no account -/
structure Config.Usable (c : Config) : Prop where
  mailHost : Named c.server.host
  mailPort : c.server.port ≠ 0
  mailAccount : HasAccount c.server.username c.server.password
  driver : c.database.driver ∈ ["postgres", "mysql", "sqlite"]
  databaseHost : Named c.database.host
  databasePort : c.database.driver ≠ "sqlite" → c.database.port ≠ 0
  databaseAccount : c.database.driver ≠ "sqlite" → HasAccount c.database.username c.database.password
  posts : ∀ p ∈ c.posts, p.Usable
  time : Named c.time
  schedule : ∃ s, Schedule.parse c.time = .ok s

/-! ## Places -/

/-- what is looked at; posts and the attachments of a post are counted from zero -/
inductive Place where
  | mailHost
  | mailPort
  | mailAccount
  | driver
  | databaseHost
  | databasePort
  | databaseAccount
  | sender (post : Nat)
  | recipients (post : Nat)
  | table (post file : Nat)
  | excel (post file : Nat)
  | time
  | schedule

/-- the number of a place, section by section -/
def Place.number : Place → List Nat
  | .mailHost => [0, 0]
  | .mailPort => [0, 1]
  | .mailAccount => [0, 2]
  | .driver => [1, 0]
  | .databaseHost => [1, 1]
  | .databasePort => [1, 2]
  | .databaseAccount => [1, 3]
  | .sender i => [2, i, 0]
  | .recipients i => [2, i, 1]
  | .table i j => [2, i, 2, j, 0]
  | .excel i j => [2, i, 2, j, 1]
  | .time => [3]
  | .schedule => [4]

/-- one place stands before the other -/
def Place.Before (p q : Place) : Prop := p.number < q.number

/-- a place is wrong, and what is then reported -/
inductive Config.Wrong (c : Config) : Place → ConfigError → Prop where
  | mailHost : ¬ Named c.server.host → Wrong c .mailHost (.invalid .mailHost)
  | mailPort : c.server.port = 0 → Wrong c .mailPort (.invalid .mailPort)
  | mailAccount : ¬ HasAccount c.server.username c.server.password → Wrong c .mailAccount (.invalid .mailAccount)
  | driver : c.database.driver ∉ ["postgres", "mysql", "sqlite"] → Wrong c .driver (.invalid .driver)
  | databaseHost : ¬ Named c.database.host → Wrong c .databaseHost (.invalid .databaseHost)
  | databasePort : c.database.driver ≠ "sqlite" → c.database.port = 0 → Wrong c .databasePort (.invalid .databasePort)
  | databaseAccount : c.database.driver ≠ "sqlite" → ¬ HasAccount c.database.username c.database.password →
      Wrong c .databaseAccount (.invalid .databaseAccount)
  | sender {i : Nat} {p : Post} : c.posts[i]? = some p → ¬ Named p.sender → Wrong c (.sender i) (.invalid .sender)
  | recipients {i : Nat} {p : Post} : c.posts[i]? = some p → p.recipients = [] ∨ (∃ r ∈ p.recipients, ¬ Named r) →
      Wrong c (.recipients i) (.invalid .recipients)
  | table {i j : Nat} {p : Post} {a : TableFile} : c.posts[i]? = some p → p.attachments[j]? = some a →
      ¬ Named a.table → Wrong c (.table i j) (.invalid .table)
  | excel {i j : Nat} {p : Post} {a : TableFile} : c.posts[i]? = some p → p.attachments[j]? = some a →
      ¬ Named a.excel → Wrong c (.excel i j) (.invalid .excel)
  | time : ¬ Named c.time → Wrong c .time (.invalid .time)
  | schedule {cause : ScheduleError} : Schedule.parse c.time = .error cause → Wrong c .schedule (.schedule cause)

/-- the program does not survive the error: an interval is more than can be counted -/
def ConfigError.Fatal (e : ConfigError) : Prop := ∃ cause, e = .schedule (.overflow cause)

/-- the first wrong place and what is reported of it -/
structure Config.FirstWrong (c : Config) (p : Place) (e : ConfigError) : Prop where
  wrong : c.Wrong p e
  first : ∀ q e', c.Wrong q e' → ¬ q.Before p

/-! ## Blank texts -/

theorem not_isAllBlank_iff {s : String} : (!isAllBlank s) = true ↔ Named s := by
  rw [Bool.not_eq_true', ← Bool.not_eq_true, Named, ne_eq, not_iff_not, isAllBlank, List.all_eq_true]
  constructor
  · intro h
    have hnothing : s.toList.dropWhile isBlank = [] := List.dropWhile_eq_nil_iff.2 h
    rw [trim, trimWhile, hnothing]
    rfl
  · intro h
    obtain ⟨a, b, hs, ha, hb⟩ := exists_trimWhile isBlank s.toList
    rw [trim] at h
    rw [hs, h, List.nil_append]
    exact List.forall_mem_append.2 ⟨ha, hb⟩

theorem hasAccount_iff {username password : String} :
    hasAccount username password = true ↔ HasAccount username password := by
  rw [hasAccount, Bool.and_eq_true, not_isAllBlank_iff, HasAccount]
  simp

theorem listed_iff {l : List String} :
    (!l.isEmpty && l.all (!isAllBlank ·)) = true ↔ ¬ (l = [] ∨ ∃ r ∈ l, ¬ Named r) := by
  rw [Bool.and_eq_true, List.all_eq_true]
  simp [← not_isAllBlank_iff]

/-! ## Element by element -/

section Elements

variable {α β γ : Type} {l : List α}

/-- lists put together element by element agree if they agree for each element at its place -/
theorem forall₂_flatMap_zipIdx {R : β → γ → Prop} {f : α × Nat → List β} {g : α → List γ}
    (h : ∀ a i, l[i]? = some a → List.Forall₂ R (f (a, i)) (g a)) :
    List.Forall₂ R (l.zipIdx.flatMap f) (l.flatMap g) := by
  have hplaces : l.zipIdx.flatMap (fun a => g a.1) = l.flatMap g := by
    rw [← List.flatMap_map Prod.fst, List.zipIdx_map_fst]
  have hlists (k : List (α × Nat)) (hk : ∀ a ∈ k, List.Forall₂ R (f a) (g a.1)) :
      List.Forall₂ R (k.flatMap f) (k.flatMap fun a => g a.1) := by
    induction k with
    | nil => exact .nil
    | cons a k ih =>
      rw [List.forall_mem_cons] at hk
      exact List.rel_append hk.1 (ih hk.2)
  rw [← hplaces]
  exact hlists _ fun a ha => h a.1 a.2 (List.mk_mem_zipIdx_iff_getElem?.1 ha)

/-- lists put together element by element are in order if each is, and elements of earlier places come first -/
theorem pairwise_flatMap_zipIdx {R : β → β → Prop} {f : α × Nat → List β}
    (hin : ∀ a, (f a).Pairwise R) (hbetween : ∀ a b, a.2 < b.2 → ∀ x ∈ f a, ∀ y ∈ f b, R x y) :
    (l.zipIdx.flatMap f).Pairwise R := by
  have hplaces : (l.zipIdx.map Prod.snd).Pairwise (· < ·) := by
    rw [List.zipIdx_map_snd]
    exact List.pairwise_lt_range'
  exact List.pairwise_flatMap.2 ⟨fun a _ => hin a, (List.pairwise_map.1 hplaces).imp fun h => hbetween _ _ h⟩

end Elements

/-! ## Places in order -/

namespace Place

variable {p q : Place}

/-- the places in an attachment -/
def ofFile (i j : Nat) : List Place := [.table i j, .excel i j]

/-- the places in a post -/
def ofPost (i : Nat) (p : Post) : List Place :=
  [.sender i, .recipients i] ++ p.attachments.zipIdx.flatMap fun a => ofFile i a.2

theorem before_irrefl (p : Place) : ¬ p.Before p := List.lt_irrefl p.number

theorem Before.asymm (h : p.Before q) : ¬ q.Before p := List.lt_asymm h

/-- the section that a place is in is told by the first number -/
def InSection (p : Place) (k : Nat) : Prop := ∃ rest, p.number = k :: rest

theorem InSection.before {k l : Nat} (hp : p.InSection k) (hq : q.InSection l) (h : k < l) : p.Before q := by
  obtain ⟨_, hp⟩ := hp
  obtain ⟨_, hq⟩ := hq
  rw [Before, hp, hq]
  exact List.cons_lt_cons_iff.2 (.inl h)

theorem number_of_mem_ofFile {i j : Nat} (h : p ∈ ofFile i j) :
    ∃ rest, p.number = 2 :: i :: 2 :: j :: rest := by
  simp only [ofFile, List.mem_cons, List.not_mem_nil, or_false] at h
  rcases h with rfl | rfl <;> exact ⟨_, rfl⟩

theorem number_of_mem_ofPost {i : Nat} {post : Post} (h : p ∈ ofPost i post) :
    ∃ rest, p.number = 2 :: i :: rest := by
  rcases List.mem_append.1 h with h | h
  · simp only [List.mem_cons, List.not_mem_nil, or_false] at h
    rcases h with rfl | rfl <;> exact ⟨_, rfl⟩
  · obtain ⟨a, -, h⟩ := List.mem_flatMap.1 h
    obtain ⟨rest, h⟩ := number_of_mem_ofFile h
    exact ⟨_, h⟩

theorem pairwise_ofPost (i : Nat) (post : Post) : (ofPost i post).Pairwise Before := by
  refine List.pairwise_append.2 ⟨?_, pairwise_flatMap_zipIdx (fun a => ?_) fun a b hab x hx y hy => ?_,
    fun x hx y hy => ?_⟩
  · simp [Before, number, List.cons_lt_cons_iff]
  · simp [ofFile, Before, number, List.cons_lt_cons_iff]
  · obtain ⟨_, hx⟩ := number_of_mem_ofFile hx
    obtain ⟨_, hy⟩ := number_of_mem_ofFile hy
    simp [Before, hx, hy, List.cons_lt_cons_iff, hab]
  · obtain ⟨a, -, hy⟩ := List.mem_flatMap.1 hy
    obtain ⟨_, hy⟩ := number_of_mem_ofFile hy
    simp only [List.mem_cons, List.not_mem_nil, or_false] at hx
    rw [Before, hy]
    rcases hx with rfl | rfl <;> simp [number, List.cons_lt_cons_iff]

end Place

namespace Config

/-! ## Places and conditions -/

/-- the places with a condition each, in the order of the conditions -/
def places (c : Config) : List Place :=
  [.mailHost, .mailPort, .mailAccount] ++ [.driver, .databaseHost, .databasePort, .databaseAccount] ++
    (c.posts.zipIdx.flatMap fun p => Place.ofPost p.2 p.1) ++ [.time]

/-- a condition says whether a place is wrong -/
structure Decides (c : Config) (p : Place) (k : Condition) : Prop where
  holds : k.holds = true → ∀ e, ¬ c.Wrong p e
  fails : k.holds = false → c.Wrong p (.invalid k.fault)

variable {c : Config} {p q : Place} {e e' : ConfigError}

/-- the condition is the one that the place is right by -/
theorem Decides.of_iff {k : Condition} {P : Prop} (hk : k.holds = true ↔ P) (hwrong : ∀ e, c.Wrong p e → ¬ P)
    (hplace : ¬ P → c.Wrong p (.invalid k.fault)) : c.Decides p k where
  holds h e hw := hwrong e hw (hk.1 h)
  fails h := hplace fun hP => Bool.false_ne_true (h.symm.trans (hk.2 hP))

theorem decides_server : List.Forall₂ c.Decides [.mailHost, .mailPort, .mailAccount] c.server.conditions := by
  have hhost : c.Decides .mailHost ⟨!isAllBlank c.server.host, .mailHost⟩ :=
    .of_iff not_isAllBlank_iff (fun | _, .mailHost hn => hn) .mailHost
  have hport : c.Decides .mailPort ⟨c.server.port != 0, .mailPort⟩ :=
    .of_iff bne_iff_ne (fun | _, .mailPort hn => not_not.2 hn) fun hn => .mailPort (not_not.1 hn)
  have haccount : c.Decides .mailAccount ⟨hasAccount c.server.username c.server.password, .mailAccount⟩ :=
    .of_iff hasAccount_iff (fun | _, .mailAccount hn => hn) .mailAccount
  exact .cons hhost (.cons hport (.cons haccount .nil))

theorem decides_database :
    List.Forall₂ c.Decides [.driver, .databaseHost, .databasePort, .databaseAccount] c.database.conditions := by
  -- what only a server needs is in order for a file
  have hserver {b : Bool} {P : Prop} (hb : b = true ↔ P) :
      (c.database.isFile || b) = true ↔ (c.database.driver ≠ "sqlite" → P) := by
    rw [Bool.or_eq_true, hb, Database.isFile, Database.fileDriver, beq_iff_eq, or_iff_not_imp_left]
  have hdriver : c.Decides .driver ⟨Database.knownDrivers.contains c.database.driver, .driver⟩ :=
    .of_iff List.contains_iff_mem (fun | _, .driver hn => hn) .driver
  have hhost : c.Decides .databaseHost ⟨!isAllBlank c.database.host, .databaseHost⟩ :=
    .of_iff not_isAllBlank_iff (fun | _, .databaseHost hn => hn) .databaseHost
  have hport : c.Decides .databasePort ⟨c.database.isFile || c.database.port != 0, .databasePort⟩ := by
    refine .of_iff (hserver bne_iff_ne) (fun | _, .databasePort hs hn => fun h => h hs hn) fun hn => ?_
    obtain ⟨hs, hn⟩ := Classical.not_imp.1 hn
    exact .databasePort hs (not_not.1 hn)
  have haccount : c.Decides .databaseAccount
      ⟨c.database.isFile || hasAccount c.database.username c.database.password, .databaseAccount⟩ := by
    refine .of_iff (hserver hasAccount_iff) (fun | _, .databaseAccount hs hn => fun h => hn (h hs)) fun hn => ?_
    obtain ⟨hs, hn⟩ := Classical.not_imp.1 hn
    exact .databaseAccount hs hn
  exact .cons hdriver (.cons hhost (.cons hport (.cons haccount .nil)))

theorem decides_file {i j : Nat} {p : Post} {a : TableFile} (hp : c.posts[i]? = some p)
    (ha : p.attachments[j]? = some a) : List.Forall₂ c.Decides (Place.ofFile i j) a.conditions := by
  have htable : c.Decides (.table i j) ⟨!isAllBlank a.table, .table⟩ := by
    refine .of_iff not_isAllBlank_iff (fun e hw => ?_) (.table hp ha)
    cases hw with
    | table hp' ha' hn =>
      obtain rfl := Option.some.inj (hp.symm.trans hp')
      obtain rfl := Option.some.inj (ha.symm.trans ha')
      exact hn
  have hexcel : c.Decides (.excel i j) ⟨!isAllBlank a.excel, .excel⟩ := by
    refine .of_iff not_isAllBlank_iff (fun e hw => ?_) (.excel hp ha)
    cases hw with
    | excel hp' ha' hn =>
      obtain rfl := Option.some.inj (hp.symm.trans hp')
      obtain rfl := Option.some.inj (ha.symm.trans ha')
      exact hn
  exact .cons htable (.cons hexcel .nil)

theorem decides_post {i : Nat} {p : Post} (hp : c.posts[i]? = some p) :
    List.Forall₂ c.Decides (Place.ofPost i p) p.conditions := by
  have hsender : c.Decides (.sender i) ⟨!isAllBlank p.sender, .sender⟩ := by
    refine .of_iff not_isAllBlank_iff (fun e hw => ?_) (.sender hp)
    cases hw with
    | sender hp' hn =>
      obtain rfl := Option.some.inj (hp.symm.trans hp')
      exact hn
  have hrecipients : c.Decides (.recipients i)
      ⟨!p.recipients.isEmpty && p.recipients.all (!isAllBlank ·), .recipients⟩ := by
    refine .of_iff listed_iff (fun e hw => ?_) fun hn => .recipients hp (not_not.1 hn)
    cases hw with
    | recipients hp' hn =>
      obtain rfl := Option.some.inj (hp.symm.trans hp')
      exact not_not.2 hn
  have hfiles : List.Forall₂ c.Decides (p.attachments.zipIdx.flatMap fun a => Place.ofFile i a.2)
      (p.attachments.flatMap TableFile.conditions) := by
    apply forall₂_flatMap_zipIdx
    exact fun a j ha => decides_file hp ha
  exact List.rel_append (.cons hsender (.cons hrecipients .nil)) hfiles

theorem decides : List.Forall₂ c.Decides c.places c.conditions := by
  have hposts : List.Forall₂ c.Decides (c.posts.zipIdx.flatMap fun p => Place.ofPost p.2 p.1)
      (c.posts.flatMap Post.conditions) := by
    apply forall₂_flatMap_zipIdx
    exact fun p i hp => decides_post hp
  have htime : c.Decides .time ⟨!isAllBlank c.time, .time⟩ :=
    .of_iff not_isAllBlank_iff (fun | _, .time hn => hn) .time
  exact List.rel_append (List.rel_append (List.rel_append decides_server decides_database) hposts) (.cons htime .nil)

/-! ## The order of the places -/

/-- the places in their order, the schedule last -/
theorem pairwise_places (c : Config) : (c.places ++ [Place.schedule]).Pairwise Place.Before := by
  have hposts : (c.posts.zipIdx.flatMap fun p => Place.ofPost p.2 p.1).Pairwise Place.Before := by
    refine pairwise_flatMap_zipIdx (fun a => Place.pairwise_ofPost a.2 a.1) fun a b hab x hx y hy => ?_
    obtain ⟨_, hx⟩ := Place.number_of_mem_ofPost hx
    obtain ⟨_, hy⟩ := Place.number_of_mem_ofPost hy
    simp [Place.Before, hx, hy, List.cons_lt_cons_iff, hab]
  have hfront : ∀ x ∈ [Place.mailHost, .mailPort, .mailAccount] ++
      [.driver, .databaseHost, .databasePort, .databaseAccount], ∃ k < 2, x.InSection k := by
    simp only [List.cons_append, List.nil_append, List.forall_mem_cons]
    exact ⟨⟨0, by decide, _, rfl⟩, ⟨0, by decide, _, rfl⟩, ⟨0, by decide, _, rfl⟩, ⟨1, by decide, _, rfl⟩,
      ⟨1, by decide, _, rfl⟩, ⟨1, by decide, _, rfl⟩, ⟨1, by decide, _, rfl⟩, List.forall_mem_nil _⟩
  have hmiddle : ∀ x ∈ c.posts.zipIdx.flatMap fun p => Place.ofPost p.2 p.1, x.InSection 2 := by
    intro x hx
    obtain ⟨a, -, hx⟩ := List.mem_flatMap.1 hx
    obtain ⟨_, hx⟩ := Place.number_of_mem_ofPost hx
    exact ⟨_, hx⟩
  have hback : ∀ y ∈ [Place.time] ++ [.schedule], ∃ k > 2, y.InSection k := by
    simp only [List.cons_append, List.nil_append, List.forall_mem_cons]
    exact ⟨⟨3, by decide, _, rfl⟩, ⟨4, by decide, _, rfl⟩, List.forall_mem_nil _⟩
  rw [places, List.append_assoc]
  refine List.pairwise_append.2 ⟨List.pairwise_append.2 ⟨?_, hposts, fun x hx y hy => ?_⟩, ?_, fun x hx y hy => ?_⟩
  · simp [Place.Before, Place.number, List.cons_lt_cons_iff]
  · obtain ⟨k, hk, hx⟩ := hfront x hx
    exact hx.before (hmiddle y hy) hk
  · simp [Place.Before, Place.number, List.cons_lt_cons_iff]
  · obtain ⟨l, hl, hy⟩ := hback y hy
    rcases List.mem_append.1 hx with hx | hx
    · obtain ⟨k, hk, hx⟩ := hfront x hx
      exact hx.before hy (by omega)
    · exact (hmiddle x hx).before hy hl

/-! ## What is wrong first -/

/-- every place that can be wrong is one of them -/
theorem Wrong.mem (h : c.Wrong p e) : p ∈ c.places ++ [Place.schedule] := by
  have hpost {i : Nat} {post : Post} (hi : c.posts[i]? = some post) (hp : p ∈ Place.ofPost i post) :
      p ∈ c.places ++ [Place.schedule] := by
    have hmem : p ∈ c.posts.zipIdx.flatMap fun a => Place.ofPost a.2 a.1 :=
      List.mem_flatMap.2 ⟨(post, i), List.mk_mem_zipIdx_iff_getElem?.2 hi, hp⟩
    simp [places, hmem]
  have hfile {i j : Nat} {post : Post} {a : TableFile} (hi : c.posts[i]? = some post)
      (hj : post.attachments[j]? = some a) (hp : p ∈ Place.ofFile i j) : p ∈ c.places ++ [Place.schedule] :=
    hpost hi (List.mem_append_right _ (List.mem_flatMap.2 ⟨(a, j), List.mk_mem_zipIdx_iff_getElem?.2 hj, hp⟩))
  cases h with
  | sender hi _ | recipients hi _ => exact hpost hi (by simp [Place.ofPost])
  | table hi hj _ | excel hi hj _ => exact hfile hi hj (by simp [Place.ofFile])
  | _ => simp [places]

/-- what is reported of a place does not depend on anything else -/
theorem Wrong.unique (h : c.Wrong p e) (h' : c.Wrong p e') : e = e' := by
  cases h with
  | schedule hs =>
    cases h' with
    | schedule hs' => rw [hs, Except.error.injEq] at hs'; rw [hs']
  | _ => cases h'; rfl

theorem FirstWrong.unique (h : c.FirstWrong p e) (h' : c.FirstWrong q e') : e = e' := by
  obtain ⟨before, after, hsplit⟩ := List.append_of_mem h.wrong.mem
  have hordered := pairwise_places c
  have hmem := h'.wrong.mem
  rw [hsplit] at hordered hmem
  obtain ⟨-, hafter, hbefore⟩ := List.pairwise_append.1 hordered
  rcases List.mem_append.1 hmem with hmem | hmem
  · exact absurd (hbefore q hmem p List.mem_cons_self) (h.first q e' h'.wrong)
  · rcases List.mem_cons.1 hmem with rfl | hmem
    · exact h.wrong.unique h'.wrong
    · exact absurd ((List.pairwise_cons.1 hafter).1 q hmem) (h'.first p e h.wrong)

/-- a wrong place that has none before it in the list -/
theorem firstWrong_of_split {before after : List Place} (hsplit : c.places ++ [Place.schedule] = before ++ p :: after)
    (hp : c.Wrong p e) (hbefore : ∀ q ∈ before, ∀ e', ¬ c.Wrong q e') : c.FirstWrong p e := by
  refine ⟨hp, fun q e' hq hqp => ?_⟩
  have hordered := pairwise_places c
  have hmem := hq.mem
  rw [hsplit] at hordered hmem
  rcases List.mem_append.1 hmem with hmem | hmem
  · exact hbefore q hmem e' hq
  · rcases List.mem_cons.1 hmem with rfl | hmem
    · exact q.before_irrefl hqp
    · exact ((List.pairwise_cons.1 (List.pairwise_append.1 hordered).2.1).1 q hmem).asymm hqp

/-- the first condition that fails has a place, and the places before it are in order -/
theorem exists_of_find? {ps : List Place} {ks : List Condition} (hd : List.Forall₂ c.Decides ps ks) :
    (ks.find? (!·.holds) = none ∧ ∀ p ∈ ps, ∀ e, ¬ c.Wrong p e) ∨
      ∃ k before p after, ks.find? (!·.holds) = some k ∧ ps = before ++ p :: after ∧ c.Wrong p (.invalid k.fault) ∧
        ∀ q ∈ before, ∀ e, ¬ c.Wrong q e := by
  induction hd with
  | nil => exact .inl ⟨rfl, List.forall_mem_nil _⟩
  | @cons p k ps ks hpk _ ih =>
    rw [List.find?_cons]
    cases hk : k.holds with
    | false => exact .inr ⟨k, [], p, ps, rfl, rfl, hpk.fails hk, List.forall_mem_nil _⟩
    | true =>
      rcases ih with ⟨hnone, hclean⟩ | ⟨failed, before, q, after, hsome, rfl, hq, hbefore⟩
      · exact .inl ⟨hnone, List.forall_mem_cons.2 ⟨hpk.holds hk, hclean⟩⟩
      · exact .inr ⟨failed, p :: before, q, after, hsome, rfl, hq, List.forall_mem_cons.2 ⟨hpk.holds hk, hbefore⟩⟩

/-- either nothing is wrong, or what is reported is wrong first -/
theorem validate_cases (c : Config) :
    (c.validate = .ok () ∧ ∀ p e, ¬ c.Wrong p e) ∨ ∃ p e, c.validate = .error e ∧ c.FirstWrong p e := by
  unfold validate
  rcases exists_of_find? (decides (c := c)) with ⟨hnone, hclean⟩ | ⟨k, before, p, after, hsome, hsplit, hp, hbefore⟩
  · rw [hnone]
    cases hs : c.schedule with
    | ok s =>
      refine .inl ⟨rfl, fun p e hp => ?_⟩
      rcases List.mem_append.1 hp.mem with hmem | hmem
      · exact hclean p hmem e hp
      · obtain rfl := List.mem_singleton.1 hmem
        cases hp with
        | schedule he =>
          rw [← schedule, hs] at he
          cases he
    | error cause =>
      exact .inr ⟨.schedule, .schedule cause, rfl, firstWrong_of_split rfl (.schedule hs) hclean⟩
  · rw [hsome]
    have hplaces : c.places ++ [Place.schedule] = before ++ p :: (after ++ [Place.schedule]) := by
      rw [hsplit, List.append_assoc, List.cons_append]
    exact .inr ⟨p, .invalid k.fault, rfl, firstWrong_of_split hplaces hp hbefore⟩

/-! ## Usable configurations -/

theorem usable_iff : c.Usable ↔ ∀ p e, ¬ c.Wrong p e := by
  constructor
  · intro h p e hw
    cases hw with
    | mailHost hn => exact hn h.mailHost
    | mailPort hn => exact h.mailPort hn
    | mailAccount hn => exact hn h.mailAccount
    | driver hn => exact hn h.driver
    | databaseHost hn => exact hn h.databaseHost
    | databasePort hs hn => exact h.databasePort hs hn
    | databaseAccount hs hn => exact hn (h.databaseAccount hs)
    | sender hi hn => exact hn (h.posts _ (List.mem_of_getElem? hi)).sender
    | recipients hi hn =>
      have hpost := h.posts _ (List.mem_of_getElem? hi)
      rcases hn with hn | ⟨r, hr, hn⟩
      · exact hpost.someone hn
      · exact hn (hpost.recipients r hr)
    | table hi hj hn =>
      exact hn ((h.posts _ (List.mem_of_getElem? hi)).attachments _ (List.mem_of_getElem? hj)).table
    | excel hi hj hn =>
      exact hn ((h.posts _ (List.mem_of_getElem? hi)).attachments _ (List.mem_of_getElem? hj)).excel
    | time hn => exact hn h.time
    | schedule he =>
      obtain ⟨s, hs⟩ := h.schedule
      rw [hs] at he
      cases he
  · intro h
    have hpost {i : Nat} {p : Post} (hi : c.posts[i]? = some p) : p.Usable := by
      refine ⟨not_not.1 fun hn => h _ _ (.sender hi hn), fun hn => h _ _ (.recipients hi (.inl hn)), fun r hr => ?_,
        fun a ha => ?_⟩
      · exact not_not.1 fun hn => h _ _ (.recipients hi (.inr ⟨r, hr, hn⟩))
      · obtain ⟨j, hj⟩ := List.getElem?_of_mem ha
        exact ⟨not_not.1 fun hn => h _ _ (.table hi hj hn), not_not.1 fun hn => h _ _ (.excel hi hj hn)⟩
    refine ⟨not_not.1 fun hn => h _ _ (.mailHost hn), fun hn => h _ _ (.mailPort hn),
      not_not.1 fun hn => h _ _ (.mailAccount hn), not_not.1 fun hn => h _ _ (.driver hn),
      not_not.1 fun hn => h _ _ (.databaseHost hn), fun hs hn => h _ _ (.databasePort hs hn),
      fun hs => not_not.1 fun hn => h _ _ (.databaseAccount hs hn), fun p hp => ?_,
      not_not.1 fun hn => h _ _ (.time hn), ?_⟩
    · obtain ⟨i, hi⟩ := List.getElem?_of_mem hp
      exact hpost hi
    · cases hs : Schedule.parse c.time with
      | ok s => exact ⟨s, rfl⟩
      | error cause => exact absurd (.schedule hs) (h .schedule (.schedule cause))

/-- when the schedule is the first wrong place, nothing else is wrong -/
theorem firstWrong_schedule_iff :
    c.FirstWrong .schedule e ↔ c.Wrong .schedule e ∧ ∀ q e', c.Wrong q e' → q = .schedule := by
  constructor
  · refine fun h => ⟨h.wrong, fun q e' hq => ?_⟩
    rcases List.mem_append.1 hq.mem with hmem | hmem
    · have hbefore := (List.pairwise_append.1 (pairwise_places c)).2.2 q hmem .schedule List.mem_cons_self
      exact absurd hbefore (h.first q e' hq)
    · exact List.mem_singleton.1 hmem
  · rintro ⟨hwrong, honly⟩
    refine ⟨hwrong, fun q e' hq => ?_⟩
    obtain rfl := honly q e' hq
    exact Place.before_irrefl _

/-- **A configuration is valid just if it is usable, and else the first wrong place is reported.** The one error that is
not returned is the end of the program: it comes of an interval that cannot be counted, in an item or in the sum, and of
that just if nothing else is wrong. -/
theorem validate_exact (c : Config) :
    (c.validate = .ok () ↔ c.Usable) ∧ (∀ e, c.validate = .error e ↔ ∃ p, c.FirstWrong p e) ∧
      ((∃ e, c.validate = .error e ∧ e.Fatal) ↔
        (∃ cause, Schedule.parse c.time = .error (.overflow cause)) ∧ ∀ p e, c.Wrong p e → p = .schedule) := by
  have herror : ∀ e, c.validate = .error e ↔ ∃ p, c.FirstWrong p e := by
    intro e'
    rcases validate_cases c with ⟨hok, hclean⟩ | ⟨p, e, herror, hfirst⟩
    · rw [hok]
      refine ⟨nofun, ?_⟩
      rintro ⟨p, hp⟩
      exact absurd hp.wrong (hclean p e')
    · rw [herror]
      constructor
      · intro he
        cases he
        exact ⟨p, hfirst⟩
      · rintro ⟨q, hq⟩
        rw [hfirst.unique hq]
  refine ⟨?_, herror, ?_⟩
  · rcases validate_cases c with ⟨hok, hclean⟩ | ⟨p, e, herror, hfirst⟩
    · rw [hok]
      exact ⟨fun _ => usable_iff.2 hclean, fun _ => rfl⟩
    · rw [herror]
      exact ⟨nofun, fun h => absurd hfirst.wrong (usable_iff.1 h p e)⟩
  · constructor
    · rintro ⟨e, hvalidate, cause, rfl⟩
      obtain ⟨p, hfirst⟩ := (herror _).1 hvalidate
      obtain ⟨rfl, hparse⟩ : p = .schedule ∧ Schedule.parse c.time = .error (.overflow cause) := by
        cases hfirst.wrong with
        | schedule hparse => exact ⟨rfl, hparse⟩
      exact ⟨⟨cause, hparse⟩, (firstWrong_schedule_iff.1 hfirst).2⟩
    · rintro ⟨⟨cause, hparse⟩, honly⟩
      exact ⟨_, (herror _).2 ⟨.schedule, firstWrong_schedule_iff.2 ⟨.schedule hparse, honly⟩⟩, cause, rfl⟩

/-- a configuration with such an interval, and nothing else wrong with it -/
def countless : Config :=
  ⟨⟨"mail.example.com", 465, "user", "secret"⟩, ⟨"sqlite", "a.db", 0, "", "", none⟩, [],
    "@every 18446744073709551615s1s"⟩

/-- it cannot be used, but no error is returned -/
theorem validate_countless :
    ¬ countless.Usable ∧ countless.validate = .error (.schedule (.overflow .sum)) ∧
      ∀ e, countless.validate = .error e → e.Fatal := by
  have hparse : Schedule.parse countless.time = .error (.overflow .sum) := by decide +kernel
  have hvalidate : countless.validate = .error (.schedule (.overflow .sum)) := by decide +kernel
  refine ⟨fun h => ?_, hvalidate, fun e he => ?_⟩
  · obtain ⟨s, hs⟩ := h.schedule
    rw [hparse] at hs
    cases hs
  · rw [hvalidate] at he
    exact ⟨.sum, (Except.error.inj he).symm⟩

-- the second post has an attachment without a table or a file name, and the time cannot be read
example :
    validate ⟨⟨"mail.example.com", 465, "user", " "⟩, ⟨"sqlite", "a.db", 0, "", "", none⟩,
      [⟨"a@example.com", ["b@example.com"], "", "", []⟩, ⟨"a@example.com", ["b@example.com"], "", "", [⟨" ", ""⟩]⟩],
      "noon"⟩ = .error (.invalid .table) := by decide +kernel

end Config

end SheetPost
