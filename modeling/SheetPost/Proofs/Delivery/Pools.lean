/-
The pools of runs. A run has one pool of its own: the posts find it open, none of their steps closes it or opens another
one, and it is closed behind them, whatever they come to. A run that cannot get that far has opened none, or has closed
it again. Runs of one runner never overlap, so between them no pool is open at all.

Main statement: however calls begin, act and return, a call that returned has left no pool open, and it tried none where
the mail server's settings or the database's URL stood against it (`pools_closed_on_return`).
-/
import SheetPost.Proofs.Delivery.Calls
import SheetPost.Proofs.Delivery.Counting
import SheetPost.Proofs.Pool.Lifetime

namespace SheetPost

/-- the step is one of a post -/
def Step.delivers : Step → Bool
  | .query _ | .build | .send _ _ _ => true
  | _ => false

theorem Step.changesPool_of_delivers {s : Step} (h : s.delivers = true) : s.changesPool = false := by
  cases s with
  | query _ | build | send _ _ _ => rfl
  | _ => cases h

namespace Delivery

open SheetPost.Pool

/-! ## One run -/

variable {c : Config} {w : World} {h : History}

/-- the steps of posts are queries, messages and sendings -/
theorem grew_delivers (specs : List Spec) (w : World) (h : History) :
    Grew (fun e => e.step.delivers = true) h (deliverAll specs w h).2 := by
  have hpost (s : Spec) (h : History) : Grew (fun e => e.step.delivers = true) h (deliver .none s w h).2 := by
    rw [deliver_eq]
    refine Act.grew_bind (Act.grew_all fun f _ h => Act.grew_step fun _ => rfl) fun attachments h1 _ => ?_
    refine Act.grew_bind (Act.grew_step fun _ => rfl) fun m h2 _ => ?_
    exact Act.grew_bind (Act.grew_all fun r _ h => Act.grew_step fun _ => rfl) fun _ h3 _ => .refl _ h3
  induction specs generalizing h with
  | nil => exact .refl _ h
  | cons s specs ih =>
    rw [deliverAll_cons]
    exact Act.grew_bind (hpost s h) fun a h1 _ => Act.grew_bind (ih h1) fun b h2 _ => .refl _ h2

/-- a post finds a pool and leaves it as it is, however far it gets -/
theorem leaves_deliver (report : Report) (s : Spec) : Leaves (deliver report s) .present .present .present := by
  have hfile (f : FileRequest) : Leaves (exportFile f) .present .present .present :=
    leaves_step (.used rfl) (.used rfl)
  have hmessage (attachments : List Mail.Attachment) :
      Leaves (buildMessage s attachments) .present .present .present :=
    leaves_step (.apart _ rfl rfl) (.apart _ rfl rfl)
  have hsend (m : Mail.Message) (r : String) : Leaves (sendTo s.sender m.bytes r) .present .present .present :=
    leaves_step (.apart _ rfl rfl) (.apart _ rfl rfl)
  rw [deliver_eq]
  refine (leaves_all hfile s.files).bind fun attachments => ?_
  refine (hmessage attachments).bind fun m => ?_
  exact (leaves_all (hsend m) s.recipients).bind fun _ => leaves_pure (report + s.work) _ _

theorem leaves_deliverAll (specs : List Spec) : Leaves (deliverAll specs) .present .present .present := by
  induction specs with
  | nil => exact leaves_pure _ _ _
  | cons s specs ih =>
    rw [deliverAll_cons]
    exact (leaves_deliver .none s).bind fun a => ih.bind fun b => leaves_pure (a + b) _ _

/-- a run finds no pool and leaves none -/
theorem leaves_runConfig (c : Config) : Leaves (runConfig c) .absent .absent .absent := by
  have hconfigure : Leaves (Act.attempt (.configure c.server.host c.server.port) (RunError.transport .server)
      fun w h => w.configure h c.server) .absent .absent .absent :=
    leaves_step (.apart _ rfl rfl) (.apart _ rfl rfl)
  refine hconfigure.bind fun _ => ?_
  refine ((leaves_connect c.database).mapError _).bind fun _ => ?_
  exact (leaves_deliverAll c.specs).endingWith .closed

/-- settings of the mail server that cannot be used end a run before its pool -/
theorem runConfig_of_refused (hc : w.configure h c.server = false) :
    runConfig c w h = (.error (.transport .server), ⟨.configure c.server.host c.server.port, false⟩ :: h) := by
  unfold runConfig
  exact Act.bind_of_error (Act.attempt_of_refused hc)

/-- so does a database that cannot be reached under any URL -/
theorem runConfig_of_unreachable (hc : w.configure h c.server = true) (hd : Unreachable c.database) :
    (runConfig c w h).2 = ⟨.configure c.server.host c.server.port, true⟩ :: h := by
  obtain ⟨e, he⟩ := connect_of_unreachable hd w (⟨.configure c.server.host c.server.port, true⟩ :: h)
  unfold runConfig
  rw [Act.bind_of_ok (Act.attempt_of_allowed hc), Act.bind_of_error (Act.mapError_of_error he)]

/-- behind usable settings they are not looked at again -/
theorem grew_runConfig (hc : w.configure h c.server = true) :
    Grew (fun e => ∀ host port, e ≠ ⟨.configure host port, false⟩) h (runConfig c w h).2 := by
  refine Act.grew_bind ?_ fun _ h1 _ => ?_
  · rw [Act.attempt_of_allowed hc]
    exact ⟨[_], rfl, by simp⟩
  refine Act.grew_bind (Act.grew_mapError _ ((grew_connect c.database w h1).mono ?_)) fun _ h2 _ => ?_
  · rintro e he host port rfl
    rcases he with he | he <;> cases he
  refine Act.grew_endingWith ((grew_delivers c.specs w h2).mono ?_) (by simp)
  rintro e he host port rfl
  cases he

/-- a run that cannot have a pool tries none -/
theorem runConfig_opens_none {new : History} (hnew : (runConfig c w h).2 = new ++ h)
    (hnone : Unreachable c.database ∨ ⟨.configure c.server.host c.server.port, false⟩ ∈ new) :
    ∀ e ∈ new, ∀ url, e.step ≠ .connect url := by
  have honly {ok : Bool} (hrun : (runConfig c w h).2 = ⟨.configure c.server.host c.server.port, ok⟩ :: h) :
      ∀ e ∈ new, ∀ url, e.step ≠ .connect url := by
    have hone : new = [⟨.configure c.server.host c.server.port, ok⟩] :=
      List.append_cancel_right (hnew.symm.trans hrun)
    intro e he url
    rw [hone, List.mem_singleton] at he
    rw [he]
    simp
  cases hc : w.configure h c.server with
  | false => exact honly (congrArg Prod.snd (runConfig_of_refused hc))
  | true =>
    rcases hnone with hd | hmem
    · exact honly (runConfig_of_unreachable hc hd)
    · obtain ⟨new', hnew', hno⟩ := grew_runConfig hc
      have hsame : new = new' := List.append_cancel_right (hnew.symm.trans hnew')
      exact absurd rfl (hno _ (hsame ▸ hmem) _ _)

namespace Calls

/-! ## Calls -/

variable {s t : Calls} {m : Move} {moves : List Move} {i : Nat}

/-- the events of one call, the last one first -/
def events (s : Calls) (call : Nat) : History := (s.log.filter fun e => e.1 == call).map (·.2)

/-- what happened but for one call -/
def without (call : Option Nat) (log : List (Nat × Event)) : History := (log.filter fun e => call != some e.1).map (·.2)

theorem events_of_stretch {after own before : List (Nat × Event)} (h : Stretch s.log i after own before) :
    s.events i = own.map (·.2) := by
  have hnone {l : List (Nat × Event)} (hl : ∀ e ∈ l, e.1 ≠ i) : l.filter (fun e => e.1 == i) = [] :=
    List.filter_eq_nil_iff.2 fun e he => by simpa using hl e he
  have hown : own.filter (fun e => e.1 == i) = own :=
    List.filter_eq_self.2 fun e he => by simpa using h.own e he
  rw [events, h.parts, List.filter_append, List.filter_append, hown,
    hnone fun e he => h.others e (List.mem_append_left before he),
    hnone fun e he => h.others e (List.mem_append_right after he), List.nil_append, List.append_nil]

theorem without_none (log : List (Nat × Event)) : without none log = log.map (·.2) := by
  have hall : log.filter (fun e => none != some e.1) = log := List.filter_eq_self.2 fun e _ => rfl
  rw [without, hall]

theorem without_of_stretch {log own before : List (Nat × Event)} (h : Stretch log i [] own before) :
    without (some i) log = before.map (·.2) := by
  have hown : own.filter (fun e => some i != some e.1) = [] :=
    List.filter_eq_nil_iff.2 fun e he => by simp [h.own e he]
  have hbefore : before.filter (fun e => some i != some e.1) = before :=
    List.filter_eq_self.2 fun e he => by simpa using Ne.symm (h.others e he)
  rw [without, h.parts, List.nil_append, List.filter_append, hown, hbefore, List.nil_append]

/-- no pool is left of the calls that are not in progress -/
def NoneLeft (s : Calls) : Prop := (without s.runner.holder s.log).openPools = 0

theorem NoneLeft.step (hs : NoneLeft s) (g : Guarded c w s) (h : Change c w s m t) : NoneLeft t := by
  unfold NoneLeft at *
  cases h with
  | takes free =>
    rw [free, without_none] at hs
    simp only
    rwa [without_of_stretch (.empty g.ne_length)]
  | skips holder taken => exact hs
  | acts call e succeeds rest left =>
    obtain ⟨own, before, hstretch, -⟩ := g.accounts _ _ left
    have hholder : s.runner.holder = some call := (g.holder_iff call).2 ⟨_, left⟩
    rw [hholder, without_of_stretch hstretch] at hs
    simp only [hholder]
    rwa [without_of_stretch (hstretch.grow _)]
  | returns call result left =>
    -- the call that returns ran from what the others left
    obtain ⟨own, before, hstretch, hrun⟩ := g.accounts _ _ left
    have hholder : s.runner.holder = some call := (g.holder_iff call).2 ⟨_, left⟩
    rw [hholder, without_of_stretch hstretch] at hs
    have hled := (leaves_runConfig c).led w (before.map (·.2))
    have hend : (runConfig c w (before.map (·.2))).2 = s.log.map (·.2) := congrArg Prod.snd hrun.symm
    simp only [Runner.finish, hholder, ite_true, Runner.idle]
    rw [without_none, ← hend, hled.openPools_eq, hs]

/-- the events of a call that returned are none, or those of a run by itself -/
theorem Guarded.events_of_returned (g : Guarded c w s) {result : CallResult} (hr : s.Returned i result) :
    s.events i = [] ∨ ∃ past, (runConfig c w past).2 = s.events i ++ past := by
  cases result with
  | skipped =>
    have hnone : s.log.filter (fun e => e.1 == i) = [] :=
      List.filter_eq_nil_iff.2 fun e he => by simpa using g.accounts i _ hr e he
    rw [events, hnone]
    exact .inl rfl
  | finished result =>
    obtain ⟨after, own, before, hstretch, hrun⟩ := g.accounts i _ hr
    refine .inr ⟨before.map (·.2), ?_⟩
    rw [hrun, events_of_stretch hstretch, List.map_append]

theorem Guarded.settled (g : Guarded c w s) {result : CallResult} (hr : s.Returned i result) :
    Settled (s.events i) := by
  rcases g.events_of_returned hr with hnone | ⟨past, hevents⟩
  · rw [hnone]
    exact Trace.nil.settled
  · obtain ⟨new, hnew, htrace⟩ := (leaves_runConfig c).led w past
    rw [hevents] at hnew
    rw [List.append_cancel_right hnew]
    exact htrace.settled

theorem Guarded.opens_none (g : Guarded c w s) {result : CallResult} (hr : s.Returned i result)
    (hnone : Unreachable c.database ∨ ⟨.configure c.server.host c.server.port, false⟩ ∈ s.events i) :
    ∀ e ∈ s.events i, ∀ url, e.step ≠ .connect url := by
  rcases g.events_of_returned hr with hempty | ⟨past, hevents⟩
  · rw [hempty]
    intro e he
    cases he
  · exact runConfig_opens_none hevents hnone

/-- while nobody is in progress no pool is open -/
theorem openPools_of_free (h : run? c w idle moves = some s) (hnone : ∀ i, ¬ s.Running i) :
    s.history.openPools = 0 := by
  have hs : Guarded c w s ∧ NoneLeft s := by
    refine run?_preserves (P := fun s => Guarded c w s ∧ NoneLeft s) ?_ h ⟨guarded_idle, rfl⟩
    intro s t m hc hs
    exact ⟨hs.1.step hc, hs.2.step hs.1 hc⟩
  have hfree : s.runner.holder = none := by
    cases hh : s.runner.holder with
    | none => rfl
    | some call => exact absurd ((hs.1.holder_iff call).1 hh) (hnone call)
  have hleft := hs.2
  rw [NoneLeft, hfree, without_none] at hleft
  exact hleft

/-- **A call that returned has left no pool open.** However calls begin, act and return, and whatever the world answers:
every pool that a call opened was closed before it returned, and was open whenever it was used. The call tried none if
the settings of the mail server were refused, or if the database has no URL or one that no driver is for. No pool is
open while no call is in progress. The posts themselves close none and open none, so each of their steps finds the pool
that the first one found. -/
theorem pools_closed_on_return (h : run? c w idle moves = some s) :
    (∀ i result, s.Returned i result → Settled (s.events i) ∧
      (Unreachable c.database ∨ ⟨.configure c.server.host c.server.port, false⟩ ∈ s.events i →
        ∀ e ∈ s.events i, ∀ url, e.step ≠ .connect url)) ∧
    ((∀ i, ¬ s.Running i) → s.history.openPools = 0) ∧
    ∀ specs past, ∃ new, (deliverAll specs w past).2 = new ++ past ∧
      ∀ after e before, new = after ++ e :: before → e.step ≠ .close ∧ (∀ url, e.step ≠ .connect url) ∧
        History.openPools (before ++ past) = past.openPools ∧ History.lastUrl (before ++ past) = past.lastUrl := by
  have g : Guarded c w s := guarded_idle.run h
  refine ⟨fun i result hr => ⟨g.settled hr, g.opens_none hr⟩, openPools_of_free h, ?_⟩
  intro specs past
  obtain ⟨new, hnew, hdelivers⟩ := grew_delivers specs w past
  refine ⟨new, hnew, ?_⟩
  rintro after e before rfl
  have hchange : ∀ e' ∈ e :: before, e'.step.changesPool = false := fun e' he' =>
    Step.changesPool_of_delivers (hdelivers e' (List.mem_append_right after he'))
  rw [List.forall_mem_cons] at hchange
  refine ⟨?_, ?_, History.openPools_append hchange.2 past, History.lastUrl_append hchange.2 past⟩
  · intro he
    rw [he] at hchange
    cases hchange.1
  · intro url he
    rw [he] at hchange
    cases hchange.1

/-- a world whose database answers at the second try only, and then cannot be read -/
def hesitant : World :=
  { refusing with
    configure := fun _ _ => true
    connect := fun _ _ => true
    ping := fun h => h.any (·.step == .ping) }

/-- settings of one post with one file -/
def oneFile : Config := { nowhere with posts := [⟨"", [""], "", "", [⟨"T", "t.xlsx"⟩]⟩] }

/-- one call found no answer, the next one could not read the table -/
def afterHesitation : Calls where
  runner := .idle
  progress := [.returned (.finished (.error (.connection (.driver none)))),
    .returned (.finished (.error (.table "T" (.source "T" (.driver none)))))]
  log := [(1, ⟨.close, true⟩), (1, ⟨.query (Relation.selectAll "T"), false⟩), (1, ⟨.ping, true⟩),
    (1, ⟨.connect "sqlite://", true⟩), (1, ⟨.configure "" 25, true⟩), (0, ⟨.close, true⟩), (0, ⟨.ping, false⟩),
    (0, ⟨.connect "sqlite://", true⟩), (0, ⟨.configure "" 25, true⟩)]

/-- both closed their pools -/
theorem pools_closed_after_hesitation :
    run? oneFile hesitant idle [.begin, .act 0, .act 0, .act 0, .act 0, .finish 0, .begin, .act 1, .act 1, .act 1,
      .act 1, .act 1, .finish 1] = some afterHesitation ∧
    Settled (afterHesitation.events 0) ∧ Settled (afterHesitation.events 1) ∧
    afterHesitation.history.openPools = 0 := by
  have h : run? oneFile hesitant idle [.begin, .act 0, .act 0, .act 0, .act 0, .finish 0, .begin, .act 1, .act 1,
      .act 1, .act 1, .act 1, .finish 1] = some afterHesitation := by with_unfolding_all rfl
  obtain ⟨returned, between, -⟩ := pools_closed_on_return h
  refine ⟨h, (returned 0 _ rfl).1, (returned 1 _ rfl).1, between ?_⟩
  rintro i ⟨left, hleft⟩
  match i, hleft with
  | 0, hleft => cases hleft
  | 1, hleft => cases hleft
  | i + 2, hleft => cases hleft

end Calls

end Delivery

end SheetPost
