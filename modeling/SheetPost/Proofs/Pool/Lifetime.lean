/-
How long a pool lives. Along a history a pool is there or not (`Trace`): only where none is there one is opened, and only
one that is there is used or closed. What an act does to the pool that it finds (`Leaves`) follows from the steps it is
put together from, whatever the world answers.

Main statements: a history that begins and ends without a pool leaves none behind and uses none that is closed
(`Trace.settled`), and opening a pool leaves one just if it succeeds (`leaves_connect`).
-/
import SheetPost.Pool.Basic
import SheetPost.Proofs.World.Act

namespace SheetPost

namespace Step

/-- the step works on a pool that is open -/
def usesPool : Step → Bool
  | .ping | .query _ => true
  | _ => false

/-- the step opens a pool or closes it -/
def changesPool : Step → Bool
  | .connect _ | .close => true
  | _ => false

end Step

/-! ## Histories without a change of the pool -/

namespace History

theorem openPools_cons {e : Event} (he : e.step.changesPool = false) (h : History) :
    openPools (e :: h) = h.openPools := by
  obtain ⟨step, succeeded⟩ := e
  cases step with
  | connect | close => cases he
  | _ => rfl

theorem openPools_append {new : History} (hnew : ∀ e ∈ new, e.step.changesPool = false) (h : History) :
    openPools (new ++ h) = h.openPools := by
  induction new with
  | nil => rfl
  | cons e new ih =>
    rw [List.forall_mem_cons] at hnew
    rw [List.cons_append, openPools_cons hnew.1, ih hnew.2]

theorem lastUrl_cons {e : Event} (he : e.step.changesPool = false) (h : History) :
    lastUrl (e :: h) = h.lastUrl := by
  obtain ⟨step, succeeded⟩ := e
  cases step with
  | connect | close => cases he
  | _ => rfl

theorem lastUrl_append {new : History} (hnew : ∀ e ∈ new, e.step.changesPool = false) (h : History) :
    lastUrl (new ++ h) = h.lastUrl := by
  induction new with
  | nil => rfl
  | cons e new ih =>
    rw [List.forall_mem_cons] at hnew
    rw [List.cons_append, lastUrl_cons hnew.1, ih hnew.2]

end History

namespace Pool

open SheetPost.Relation

/-! ## Histories -/

/-- whether a pool is there -/
inductive Status where
  | absent
  | present
deriving DecidableEq

/-- how many pools that is -/
def Status.pools : Status → Int
  | .absent => 0
  | .present => 1

/-- an event may happen to the pool, and what is there then -/
inductive Follows : Status → Event → Status → Prop where
  | opened (url : String) : Follows .absent ⟨.connect url, true⟩ .present
  | refused (url : String) : Follows .absent ⟨.connect url, false⟩ .absent
  | closed : Follows .present ⟨.close, true⟩ .absent
  | used {e : Event} : e.step.usesPool = true → Follows .present e .present
  | apart {e : Event} (s : Status) : e.step.usesPool = false → e.step.changesPool = false → Follows s e s

/-- events that may happen one after the other, the last one first, and what is there then -/
inductive Trace (found : Status) : History → Status → Prop where
  | nil : Trace found [] found
  | cons {h : History} {e : Event} {s t : Status} : Trace found h s → Follows s e t → Trace found (e :: h) t

/-- neither a pool is opened nor one closed -/
def Quiet (e : Event) : Prop := e.step ≠ .close ∧ ∀ url, e ≠ ⟨.connect url, true⟩

/-- a history of its own that leaves no pool behind -/
structure Settled (h : History) : Prop where
  /-- a pool that was opened was closed later, and up to then no other one was opened -/
  closed : ∀ after before url, h = after ++ ⟨.connect url, true⟩ :: before →
    ∃ later use, after = later ++ ⟨.close, true⟩ :: use ∧ ∀ e ∈ use, Quiet e
  /-- a pool that was used or closed had been opened before, and not been closed since -/
  opened : ∀ after e before, h = after ++ e :: before → e.step.usesPool = true ∨ e.step = .close →
    ∃ use url earlier, before = use ++ ⟨.connect url, true⟩ :: earlier ∧ ∀ e' ∈ use, Quiet e'

variable {h h' h'' new past : History} {e : Event} {s t found done failed : Status}

theorem quiet_of_changesPool {e : Event} (h : e.step.changesPool = false) : Quiet e := by
  refine ⟨fun he => ?_, ?_⟩
  · rw [he] at h
    cases h
  · rintro url rfl
    cases h

theorem changesPool_of_usesPool {s : Step} (h : s.usesPool = true) : s.changesPool = false := by
  cases s with
  | ping | query _ => rfl
  | _ => cases h

theorem Trace.append (hpast : Trace found past s) (hnew : Trace s new t) : Trace found (new ++ past) t := by
  induction hnew with
  | nil => exact hpast
  | cons _ he ih => exact .cons ih he

theorem Trace.of_append (h : Trace found (new ++ past) t) : ∃ s, Trace found past s ∧ Trace s new t := by
  induction new generalizing t with
  | nil => exact ⟨t, h, .nil⟩
  | cons e new ih =>
    cases h with
    | cons h he =>
      obtain ⟨s, hpast, hnew⟩ := ih h
      exact ⟨s, hpast, .cons hnew he⟩

theorem Trace.split {after before : History} (h : Trace found (after ++ e :: before) t) :
    ∃ s s', Trace found before s ∧ Follows s e s' ∧ Trace s' after t := by
  obtain ⟨s', hfront, hafter⟩ := h.of_append
  cases hfront with
  | cons hbefore he => exact ⟨_, s', hbefore, he, hafter⟩

theorem Follows.eq_present (h : Follows s e t) (hneeds : e.step.usesPool = true ∨ e.step = .close) : s = .present := by
  cases h with
  | opened => simp [Step.usesPool] at hneeds
  | refused => simp [Step.usesPool] at hneeds
  | closed => rfl
  | used => rfl
  | apart _ hu hc =>
    rcases hneeds with hu' | he
    · rw [hu] at hu'
      cases hu'
    · rw [he] at hc
      cases hc

/-- a pool that was there at first is there as long as nothing closed it -/
theorem Trace.quiet_or_closed (h : Trace .present past t) :
    ((∀ e ∈ past, Quiet e) ∧ t = .present) ∨
      ∃ later use, past = later ++ ⟨.close, true⟩ :: use ∧ ∀ e ∈ use, Quiet e := by
  -- from the first event on; once the pool is closed, later events add to `later` only
  induction h with
  | nil => exact .inl ⟨by simp, rfl⟩
  | @cons past e s t _ he ih =>
    rcases ih with ⟨hquiet, rfl⟩ | ⟨later, use, rfl, hquiet⟩
    · have hmore (hc : e.step.changesPool = false) : ∀ e' ∈ e :: past, Quiet e' :=
        List.forall_mem_cons.2 ⟨quiet_of_changesPool hc, hquiet⟩
      cases he with
      | closed => exact .inr ⟨[], past, rfl, hquiet⟩
      | used hu => exact .inl ⟨hmore (changesPool_of_usesPool hu), rfl⟩
      | apart _ _ hc => exact .inl ⟨hmore hc, rfl⟩
    · exact .inr ⟨e :: later, use, rfl, hquiet⟩

/-- a pool that is there in the end and was not at first was opened, and nothing closed it -/
theorem Trace.exists_opened (h : Trace .absent past .present) :
    ∃ use url earlier, past = use ++ ⟨.connect url, true⟩ :: earlier ∧ ∀ e ∈ use, Quiet e := by
  generalize ht : Status.present = t at h
  induction h with
  | nil => cases ht
  | @cons past e s t _ he ih =>
    have hmore (hs : Status.present = s) (hc : e.step.changesPool = false) :
        ∃ use url earlier, e :: past = use ++ ⟨.connect url, true⟩ :: earlier ∧ ∀ e' ∈ use, Quiet e' := by
      obtain ⟨use, url, earlier, rfl, hquiet⟩ := ih hs
      exact ⟨e :: use, url, earlier, rfl, List.forall_mem_cons.2 ⟨quiet_of_changesPool hc, hquiet⟩⟩
    cases he with
    | opened url => exact ⟨[], url, past, rfl, by simp⟩
    | refused _ => cases ht
    | closed => cases ht
    | used hu => exact hmore rfl (changesPool_of_usesPool hu)
    | apart _ _ hc => exact hmore ht hc

/-- **No pool is left behind** where none was there at first and none is in the end -/
theorem Trace.settled (h : Trace .absent past .absent) : Settled past where
  closed := by
    rintro after before url rfl
    obtain ⟨s, t, -, he, hafter⟩ := h.split
    cases he with
    | apart _ _ hc => cases hc
    | used hu => cases hu
    | opened =>
      rcases hafter.quiet_or_closed with ⟨-, ht⟩ | hclosed
      · cases ht
      · exact hclosed
  opened := by
    rintro after e before rfl hneeds
    obtain ⟨s, t, hbefore, he, -⟩ := h.split
    cases he.eq_present hneeds
    exact hbefore.exists_opened

/-- the count of open pools goes with the pool -/
theorem Trace.openPools (hnew : Trace found new t) (h : History) :
    (new ++ h).openPools + found.pools = h.openPools + t.pools := by
  induction hnew with
  | nil => rfl
  | @cons new e s t _ he ih =>
    cases he with
    | opened url =>
      simp only [List.cons_append, History.openPools, ite_true, Status.pools] at ih ⊢
      omega
    | refused url =>
      simp only [List.cons_append, History.openPools, Bool.false_eq_true, ite_false]
      exact ih
    | closed =>
      simp only [List.cons_append, History.openPools, Status.pools] at ih ⊢
      omega
    | used hu =>
      rw [List.cons_append, History.openPools_cons (changesPool_of_usesPool hu)]
      exact ih
    | apart _ _ hc =>
      rw [List.cons_append, History.openPools_cons hc]
      exact ih

/-! ## Acts -/

variable {ε ε' α β : Type} {w : World}

/-- a history that grew by events of which the pool is left so -/
def Led (found left : Status) (h h' : History) : Prop := ∃ new, h' = new ++ h ∧ Trace found new left

theorem Led.refl (s : Status) (h : History) : Led s s h h := ⟨[], rfl, .nil⟩

theorem Led.trans (h1 : Led found s h h') (h2 : Led s t h' h'') : Led found t h h'' := by
  obtain ⟨new, rfl, hnew⟩ := h1
  obtain ⟨more, rfl, hmore⟩ := h2
  exact ⟨more ++ new, (List.append_assoc more new h).symm, hnew.append hmore⟩

theorem Led.cons (hl : Led found s h h') (he : Follows s e t) : Led found t h (e :: h') := by
  obtain ⟨new, rfl, hnew⟩ := hl
  exact ⟨e :: new, rfl, hnew.cons he⟩

/-- where the pool is left as it was found, no more pools are open and no fewer -/
theorem Led.openPools_eq (hl : Led s s h h') : h'.openPools = h.openPools := by
  obtain ⟨new, rfl, hnew⟩ := hl
  have hcount := hnew.openPools h
  omega

/-- what an act does to the pool that it finds, if it succeeds and if it fails -/
structure Leaves (x : Act ε α) (found done failed : Status) : Prop where
  ok : ∀ {w h a h'}, x w h = (.ok a, h') → Led found done h h'
  error : ∀ {w h e h'}, x w h = (.error e, h') → Led found failed h h'

theorem leaves_pure (a : α) (s failed : Status) : Leaves (pure a : Act ε α) s s failed where
  ok he := by
    cases he
    exact .refl s _
  error he := by cases he

theorem leaves_step {step : Step} {answer : World → History → Except ε α} (hok : Follows found ⟨step, true⟩ done)
    (herror : Follows found ⟨step, false⟩ failed) : Leaves (Act.step step answer) found done failed where
  ok he := by
    rw [Act.step, Prod.mk.injEq] at he
    rw [← he.2, he.1]
    exact (Led.refl found _).cons hok
  error he := by
    rw [Act.step, Prod.mk.injEq] at he
    rw [← he.2, he.1]
    exact (Led.refl found _).cons herror

theorem Leaves.bind {x : Act ε α} {f : α → Act ε β} (hx : Leaves x found s failed)
    (hf : ∀ a, Leaves (f a) s done failed) : Leaves (x >>= f) found done failed where
  ok {w h a h'} he := by
    rcases Act.ok_or_error x w h with ⟨b, h1, hr⟩ | ⟨e, h1, hr⟩
    · rw [Act.bind_of_ok hr] at he
      exact (hx.ok hr).trans ((hf b).ok he)
    · rw [Act.bind_of_error hr] at he
      cases he
  error {w h e h'} he := by
    rcases Act.ok_or_error x w h with ⟨b, h1, hr⟩ | ⟨e, h1, hr⟩
    · rw [Act.bind_of_ok hr] at he
      exact (hx.ok hr).trans ((hf b).error he)
    · rw [Act.bind_of_error hr] at he
      cases he
      exact hx.error hr

theorem leaves_all {f : α → Act ε β} (hf : ∀ a, Leaves (f a) s s s) (l : List α) : Leaves (Act.all f l) s s s := by
  induction l with
  | nil => exact leaves_pure [] s s
  | cons a l ih => exact (hf a).bind fun b => ih.bind fun bs => leaves_pure (b :: bs) s s

theorem Leaves.mapError {x : Act ε α} (hx : Leaves x found done failed) (f : ε → ε') :
    Leaves (x.mapError f) found done failed where
  ok {w h a h'} he := by
    unfold Act.mapError at he
    split at he
    · next b h1 hr =>
      cases he
      exact hx.ok hr
    · cases he
  error {w h e h'} he := by
    unfold Act.mapError at he
    split at he
    · cases he
    · next e' h1 hr =>
      cases he
      exact hx.error hr

/-- a step that is taken in any case has the same pool before it in any case -/
theorem Leaves.endingWith {x : Act ε α} {step : Step} (hx : Leaves x found s s) (hs : Follows s ⟨step, true⟩ t) :
    Leaves (x.endingWith step) found t t where
  ok {w h a h'} he := by
    rw [Act.endingWith, Prod.mk.injEq] at he
    rw [← he.2]
    exact (hx.ok (Prod.ext he.1 rfl)).cons hs
  error {w h e h'} he := by
    rw [Act.endingWith, Prod.mk.injEq] at he
    rw [← he.2]
    exact (hx.error (Prod.ext he.1 rfl)).cons hs

/-- whatever comes of it -/
theorem Leaves.led {x : Act ε α} (hx : Leaves x found s s) (w : World) (h : History) : Led found s h (x w h).2 := by
  rcases Act.ok_or_error x w h with ⟨a, h', hr⟩ | ⟨e, h', hr⟩
  · rw [hr]
    exact hx.ok hr
  · rw [hr]
    exact hx.error hr

/-! ## Opening -/

/-- what opening a pool for a URL comes to -/
inductive Opening (w : World) (h : History) (url : String) : Except SourceError Driver × History → Prop where
  | unknown : Driver.ofScheme? (scheme url) = none → Opening w h url (.error (.scheme (scheme url)), h)
  | unreadable {driver : Driver} : Driver.ofScheme? (scheme url) = some driver → driver.reads url = false →
    Opening w h url (.error (.driver none), h)
  | refused {driver : Driver} : Driver.ofScheme? (scheme url) = some driver → driver.reads url = true →
    w.connect h url = false → Opening w h url (.error (.driver none), ⟨.connect url, false⟩ :: h)
  | silent {driver : Driver} : Driver.ofScheme? (scheme url) = some driver → driver.reads url = true →
    w.connect h url = true → w.ping (⟨.connect url, true⟩ :: h) = false →
    Opening w h url (.error (.driver none), ⟨.close, true⟩ :: ⟨.ping, false⟩ :: ⟨.connect url, true⟩ :: h)
  | opened {driver : Driver} : Driver.ofScheme? (scheme url) = some driver → driver.reads url = true →
    w.connect h url = true → w.ping (⟨.connect url, true⟩ :: h) = true →
    Opening w h url (.ok driver, ⟨.ping, true⟩ :: ⟨.connect url, true⟩ :: h)

theorem openUrl_of_reads {url : String} {driver : Driver} (hd : Driver.ofScheme? (scheme url) = some driver)
    (hr : driver.reads url = true) :
    openUrl url = (Act.attempt (.connect url) (SourceError.driver none) (fun w h => w.connect h url) >>= fun _ =>
      ping >>= fun _ => pure driver) := by
  unfold openUrl
  rw [hd]
  simp only [hr]
  rfl

theorem opening_openUrl (w : World) (h : History) (url : String) : Opening w h url (openUrl url w h) := by
  cases hd : Driver.ofScheme? (scheme url) with
  | none =>
    unfold openUrl
    rw [hd]
    exact .unknown hd
  | some driver =>
    cases hr : driver.reads url with
    | false =>
      unfold openUrl
      rw [hd]
      simp only [hr]
      exact .unreadable hd hr
    | true =>
      rw [openUrl_of_reads hd hr]
      cases hc : w.connect h url with
      | false =>
        rw [Act.bind_of_error (Act.attempt_of_refused hc)]
        exact .refused hd hr hc
      | true =>
        rw [Act.bind_of_ok (Act.attempt_of_allowed hc)]
        cases hp : w.ping (⟨.connect url, true⟩ :: h) with
        | false =>
          have hping : ping w (⟨.connect url, true⟩ :: h) =
              (.error (.driver none), ⟨.close, true⟩ :: ⟨.ping, false⟩ :: ⟨.connect url, true⟩ :: h) := by
            rw [ping, Act.attempt_of_refused hp]
          rw [Act.bind_of_error hping]
          exact .silent hd hr hc hp
        | true =>
          have hping : ping w (⟨.connect url, true⟩ :: h) =
              (.ok (), ⟨.ping, true⟩ :: ⟨.connect url, true⟩ :: h) := by
            rw [ping, Act.attempt_of_allowed hp]
          rw [Act.bind_of_ok hping]
          exact .opened hd hr hc hp

/-- a database is connected to under its URL, if there is one -/
theorem connect_of_ok {d : Database} {url : String} (hu : d.connectionUrl = .ok url) : connect d = openUrl url := by
  rw [connect, hu]
  rfl

theorem connect_of_error {d : Database} {e : ConfigError} (hu : d.connectionUrl = .error e) (w : World) (h : History) :
    connect d w h = (.error (.settings e), h) := by
  rw [connect, hu]
  rfl

theorem leaves_openUrl (url : String) : Leaves (openUrl url) .absent .present .absent where
  ok {w h a h'} he := by
    have ho := opening_openUrl w h url
    rw [he] at ho
    cases ho with
    | opened => exact ((Led.refl _ h).cons (.opened url)).cons (.used rfl)
  error {w h e h'} he := by
    have ho := opening_openUrl w h url
    rw [he] at ho
    cases ho with
    | unknown => exact .refl _ h
    | unreadable => exact .refl _ h
    | refused => exact (Led.refl _ h).cons (.refused url)
    | silent => exact (((Led.refl _ h).cons (.opened url)).cons (.used rfl)).cons .closed

/-- only the pool is concerned -/
theorem grew_openUrl (url : String) (w : World) (h : History) :
    Grew (fun e => e.step.usesPool = true ∨ e.step.changesPool = true) h (openUrl url w h).2 := by
  have ho := opening_openUrl w h url
  generalize openUrl url w h = r at ho
  cases ho with
  | unknown | unreadable => exact .refl _ h
  | refused => exact ⟨[_], rfl, by simp [Step.changesPool]⟩
  | silent => exact ⟨[_, _, _], rfl, by simp [Step.usesPool, Step.changesPool]⟩
  | opened => exact ⟨[_, _], rfl, by simp [Step.usesPool, Step.changesPool]⟩

theorem grew_connect (d : Database) (w : World) (h : History) :
    Grew (fun e => e.step.usesPool = true ∨ e.step.changesPool = true) h (connect d w h).2 := by
  cases hu : d.connectionUrl with
  | ok url =>
    rw [connect_of_ok hu]
    exact grew_openUrl url w h
  | error e =>
    rw [connect_of_error hu]
    exact .refl _ h

/-- **Opening a pool leaves one just if it succeeds**: one that does not answer is closed again -/
theorem leaves_connect (d : Database) : Leaves (connect d) .absent .present .absent := by
  cases hu : d.connectionUrl with
  | ok url =>
    rw [connect_of_ok hu]
    exact leaves_openUrl url
  | error e =>
    constructor
    · intro w h a h' he
      rw [connect_of_error hu] at he
      cases he
    · intro w h e' h' he
      rw [connect_of_error hu] at he
      cases he
      exact .refl _ h

/-- the database has no URL, or one of a kind that no driver is for -/
def Unreachable (d : Database) : Prop :=
  (∃ e, d.connectionUrl = .error e) ∨ ∃ url, d.connectionUrl = .ok url ∧ Driver.ofScheme? (scheme url) = none

/-- then nothing is tried -/
theorem connect_of_unreachable {d : Database} (hd : Unreachable d) (w : World) (h : History) :
    ∃ e, connect d w h = (.error e, h) := by
  rcases hd with ⟨e, hu⟩ | ⟨url, hu, hnone⟩
  · exact ⟨_, connect_of_error hu w h⟩
  · refine ⟨.scheme (scheme url), ?_⟩
    rw [connect_of_ok hu, openUrl, hnone]
    rfl

/-- a pool is never opened for a kind of URL that no driver is for -/
theorem connect_eq_scheme {d : Database} {kind : String} (hk : (connect d w h).1 = .error (.scheme kind)) :
    ∃ url, d.connectionUrl = .ok url ∧ Driver.ofScheme? (scheme url) = none ∧ kind = scheme url := by
  cases hu : d.connectionUrl with
  | error e =>
    rw [connect_of_error hu] at hk
    cases hk
  | ok url =>
    refine ⟨url, rfl, ?_⟩
    have ho := opening_openUrl w h url
    rw [← connect_of_ok hu] at ho
    generalize connect d w h = r at ho hk
    cases ho with
    | unknown hnone =>
      cases hk
      exact ⟨hnone, rfl⟩
    | unreadable | refused | silent | opened => cases hk

end Pool

end SheetPost
