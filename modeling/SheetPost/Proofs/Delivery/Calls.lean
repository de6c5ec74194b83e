/-
The calls of one runner, any number of them, their steps in any order. The call that holds the guard is the one call in
progress, and the steps of a call stand together in the log, behind each other as in a run by itself. A call that finds
the guard taken returns at once and never does a step.

Main statement: however calls begin, act and return, no two runs overlap, a call is skipped exactly if it finds another
one in progress, and whatever a run comes to, the guard is free again when it returns (`runs_never_overlap`).
-/
import SheetPost.Delivery.Runner

namespace SheetPost.Delivery.Calls

variable {c : Config} {w : World} {s t u : Calls} {m : Move} {moves : List Move} {i j : Nat}

/-! ## Where a call is -/

/-- the call took the guard and has not returned -/
def Running (s : Calls) (call : Nat) : Prop := ∃ left, s.progress[call]? = some (.running left)

def Returned (s : Calls) (call : Nat) (result : CallResult) : Prop := s.progress[call]? = some (.returned result)

/-- the log falls into the steps of a call, those before its first and those after its last -/
structure Stretch (log : List (Nat × Event)) (call : Nat) (after own before : List (Nat × Event)) : Prop where
  parts : log = after ++ own ++ before
  own : ∀ e ∈ own, e.1 = call
  others : ∀ e ∈ after ++ before, e.1 ≠ call

theorem Stretch.empty {log : List (Nat × Event)} (h : ∀ e ∈ log, e.1 ≠ i) : Stretch log i [] [] log :=
  ⟨rfl, by simp, h⟩

theorem Stretch.grow {log own before : List (Nat × Event)} (h : Stretch log i [] own before) (e : Event) :
    Stretch ((i, e) :: log) i [] ((i, e) :: own) before := by
  refine ⟨congrArg _ h.parts, ?_, h.others⟩
  intro e' he'
  rcases List.mem_cons.1 he' with rfl | he'
  · rfl
  · exact h.own e' he'

theorem Stretch.followed {log after own before : List (Nat × Event)} (h : Stretch log i after own before) (hj : j ≠ i)
    (e : Event) : Stretch ((j, e) :: log) i ((j, e) :: after) own before := by
  refine ⟨congrArg _ h.parts, h.own, ?_⟩
  intro e' he'
  rcases List.mem_cons.1 he' with rfl | he'
  · exact hj
  · exact h.others e' he'

/-! ## One move -/

/-- what a move does -/
inductive Change (c : Config) (w : World) (s : Calls) : Move → Calls → Prop where
  | takes (free : s.runner.holder = none) :
    Change c w s .begin
      { s with runner := ⟨some s.progress.length⟩, progress := s.progress ++ [.running (runSteps c).script] }
  | skips (holder : Nat) (taken : s.runner.holder = some holder) :
    Change c w s .begin { s with progress := s.progress ++ [.returned .skipped] }
  | acts (call : Nat) (e : Step) (succeeds : World → History → Bool) (rest : World → History → Script RunError Report)
    (left : s.progress[call]? = some (.running (.step e succeeds rest))) :
    Change c w s (.act call)
      { s with
        progress := s.progress.set call (.running (rest w s.history))
        log := (call, ⟨e, succeeds w s.history⟩) :: s.log }
  | returns (call : Nat) (result : Except RunError Report)
    (left : s.progress[call]? = some (.running (.done result))) :
    Change c w s (.finish call)
      { s with
        runner := s.runner.finish call
        progress := s.progress.set call (.returned (.finished result)) }

theorem change_iff : Change c w s m t ↔ s.step? c w m = some t := by
  constructor
  · intro h
    cases h with
    | takes free => simp only [step?, Runner.begin, free, ite_true]
    | skips holder taken => simp [step?, Runner.begin, taken]
    | acts call e succeeds rest left => simp only [step?, left]
    | returns call result left => simp only [step?, left]
  · intro h
    cases m with
    | begin =>
      cases hh : s.runner.holder with
      | none =>
        simp only [step?, Runner.begin, hh, ite_true, Option.some.injEq] at h
        exact h ▸ .takes hh
      | some holder =>
        simp only [step?, Runner.begin, hh, Bool.false_eq_true, ite_false, Option.some.injEq] at h
        exact h ▸ .skips holder hh
    | act call =>
      simp only [step?] at h
      split at h
      · next e succeeds rest left =>
        simp only [Option.some.injEq] at h
        exact h ▸ .acts call e succeeds rest left
      · simp at h
    | finish call =>
      simp only [step?] at h
      split at h
      · next result left =>
        simp only [Option.some.injEq] at h
        exact h ▸ .returns call result left
      · simp at h

theorem getElem?_concat_eq_some {l : List Progress} {p q : Progress} :
    (l ++ [p])[i]? = some q ↔ l[i]? = some q ∨ i = l.length ∧ q = p := by
  rcases Nat.lt_trichotomy i l.length with hi | rfl | hi
  · simp [List.getElem?_append_left hi, Nat.ne_of_lt hi]
  · simp [eq_comm]
  · have hl : l[i]? = none := List.getElem?_eq_none (Nat.le_of_lt hi)
    have hc : (l ++ [p])[i]? = none := List.getElem?_eq_none (by simpa using Nat.succ_le_of_lt hi)
    simp [hl, hc, Nat.ne_of_gt hi]

theorem getElem?_set_eq_some {l : List Progress} {p q r : Progress} (hj : l[j]? = some r) :
    (l.set j p)[i]? = some q ↔ i = j ∧ q = p ∨ i ≠ j ∧ l[i]? = some q := by
  have hl := (List.getElem?_eq_some_iff.1 hj).1
  by_cases hi : i = j
  · subst hi
    simp [List.getElem?_set_self hl, eq_comm]
  · simp [List.getElem?_set_ne (Ne.symm hi), hi]

/-- a call that returned has returned for good -/
theorem Change.returned (h : Change c w s m t) {result : CallResult} (hr : s.Returned i result) :
    t.Returned i result := by
  unfold Returned at *
  cases h with
  | takes free => exact getElem?_concat_eq_some.2 (Or.inl hr)
  | skips holder taken => exact getElem?_concat_eq_some.2 (Or.inl hr)
  | acts call e succeeds rest left =>
    refine (getElem?_set_eq_some left).2 (Or.inr ⟨?_, hr⟩)
    rintro rfl
    simp [left] at hr
  | returns call result left =>
    refine (getElem?_set_eq_some left).2 (Or.inr ⟨?_, hr⟩)
    rintro rfl
    simp [left] at hr

/-- the call took the guard -/
def Taken (s : Calls) (call : Nat) : Prop := s.Running call ∨ ∃ result, s.Returned call (.finished result)

theorem Change.taken (h : Change c w s m t) (ht : s.Taken i) : t.Taken i := by
  rcases ht with ⟨left, hl⟩ | ⟨result, hr⟩
  · unfold Taken Running Returned
    cases h with
    | takes free => exact Or.inl ⟨left, getElem?_concat_eq_some.2 (Or.inl hl)⟩
    | skips holder taken => exact Or.inl ⟨left, getElem?_concat_eq_some.2 (Or.inl hl)⟩
    | acts call e succeeds rest hc =>
      by_cases hi : i = call
      · exact Or.inl ⟨_, (getElem?_set_eq_some hc).2 (Or.inl ⟨hi, rfl⟩)⟩
      · exact Or.inl ⟨left, (getElem?_set_eq_some hc).2 (Or.inr ⟨hi, hl⟩)⟩
    | returns call result hc =>
      by_cases hi : i = call
      · exact Or.inr ⟨result, (getElem?_set_eq_some hc).2 (Or.inl ⟨hi, rfl⟩)⟩
      · exact Or.inl ⟨left, (getElem?_set_eq_some hc).2 (Or.inr ⟨hi, hl⟩)⟩
  · exact Or.inr ⟨result, h.returned hr⟩

/-! ## What the guard keeps -/

/-- how far a call is, held against a run by itself from the history that the call found -/
def Account (c : Config) (w : World) (log : List (Nat × Event)) (call : Nat) : Progress → Prop
  | .running left => ∃ own before, Stretch log call [] own before ∧
      left.act w (log.map (·.2)) = runConfig c w (before.map (·.2))
  | .returned .skipped => ∀ e ∈ log, e.1 ≠ call
  | .returned (.finished result) => ∃ after own before, Stretch log call after own before ∧
      runConfig c w (before.map (·.2)) = (result, (own ++ before).map (·.2))

/-- the steps of another call change nothing for a call that returned -/
theorem Account.followed {log : List (Nat × Event)} {result : CallResult} (h : Account c w log i (.returned result))
    (hj : j ≠ i) (e : Event) : Account c w ((j, e) :: log) i (.returned result) := by
  cases result with
  | skipped =>
    intro e' he'
    rcases List.mem_cons.1 he' with rfl | he'
    · exact hj
    · exact h e' he'
  | finished result =>
    obtain ⟨after, own, before, hs, hr⟩ := h
    exact ⟨(j, e) :: after, own, before, hs.followed hj e, hr⟩

/-- what holds however the calls went: the holder of the guard is the call in progress, the log is about calls that
began, and each call adds up -/
structure Guarded (c : Config) (w : World) (s : Calls) : Prop where
  holder_iff : ∀ call, s.runner.holder = some call ↔ s.Running call
  known : ∀ e ∈ s.log, e.1 < s.progress.length
  accounts : ∀ call p, s.progress[call]? = some p → Account c w s.log call p

theorem Guarded.unique (g : Guarded c w s) (hi : s.Running i) (hj : s.Running j) : i = j := by
  have h := ((g.holder_iff i).2 hi).symm.trans ((g.holder_iff j).2 hj)
  exact Option.some.inj h

theorem guarded_idle : Guarded c w idle where
  holder_iff call := by simp [idle, Runner.idle, Running]
  known := by simp [idle]
  accounts call p h := by simp [idle] at h

theorem Guarded.not_running (g : Guarded c w s) (free : s.runner.holder = none) : ¬ s.Running i := by
  intro h
  simpa [free] using (g.holder_iff i).2 h

/-- a call that has just begun is not in the log -/
theorem Guarded.ne_length (g : Guarded c w s) : ∀ e ∈ s.log, e.1 ≠ s.progress.length :=
  fun e he => Nat.ne_of_lt (g.known e he)

theorem Guarded.known_concat (g : Guarded c w s) (p : Progress) : ∀ e ∈ s.log, e.1 < (s.progress ++ [p]).length := by
  intro e he
  have := g.known e he
  simp only [List.length_append, List.length_singleton]
  omega

theorem Guarded.takes (g : Guarded c w s) (free : s.runner.holder = none) :
    Guarded c w
      { s with runner := ⟨some s.progress.length⟩, progress := s.progress ++ [.running (runSteps c).script] } where
  holder_iff call := by
    simp only [Running, getElem?_concat_eq_some, Option.some.injEq]
    constructor
    · rintro rfl
      exact ⟨_, Or.inr ⟨rfl, rfl⟩⟩
    · rintro ⟨left, hl | ⟨rfl, -⟩⟩
      · exact absurd ⟨left, hl⟩ (g.not_running free)
      · rfl
  known := g.known_concat _
  accounts call p hp := by
    rcases getElem?_concat_eq_some.1 hp with hp | ⟨rfl, rfl⟩
    · exact g.accounts call p hp
    · refine ⟨[], s.log, .empty g.ne_length, ?_⟩
      rw [(runSteps c).act_script]

theorem Guarded.skips (g : Guarded c w s) : Guarded c w { s with progress := s.progress ++ [.returned .skipped] } where
  holder_iff call := by
    rw [g.holder_iff]
    simp [Running, getElem?_concat_eq_some]
  known := g.known_concat _
  accounts call p hp := by
    rcases getElem?_concat_eq_some.1 hp with hp | ⟨rfl, rfl⟩
    · exact g.accounts call p hp
    · exact g.ne_length

theorem Guarded.acts (g : Guarded c w s) {e : Step} {succeeds : World → History → Bool}
    {rest : World → History → Script RunError Report} (left : s.progress[i]? = some (.running (.step e succeeds rest))) :
    Guarded c w
      { s with
        progress := s.progress.set i (.running (rest w s.history))
        log := (i, ⟨e, succeeds w s.history⟩) :: s.log } where
  holder_iff call := by
    rw [g.holder_iff]
    simp only [Running, getElem?_set_eq_some left]
    by_cases hc : call = i
    · subst hc
      simp [left]
    · simp [hc]
  known := by
    intro e he
    rw [List.length_set]
    rcases List.mem_cons.1 he with rfl | he
    · exact (List.getElem?_eq_some_iff.1 left).1
    · exact g.known e he
  accounts call p hp := by
    rcases (getElem?_set_eq_some left).1 hp with ⟨rfl, rfl⟩ | ⟨hc, hp⟩
    · obtain ⟨own, before, hs, hr⟩ := g.accounts _ _ left
      exact ⟨_, before, hs.grow _, hr⟩
    · -- another call in progress would hold the guard too
      cases p with
      | running other => exact absurd (g.unique ⟨other, hp⟩ ⟨_, left⟩) hc
      | returned result => exact (g.accounts call _ hp).followed (Ne.symm hc) _

theorem Guarded.returns (g : Guarded c w s) {result : Except RunError Report}
    (left : s.progress[i]? = some (.running (.done result))) :
    Guarded c w
      { s with runner := s.runner.finish i, progress := s.progress.set i (.returned (.finished result)) } where
  holder_iff call := by
    have ha : s.runner.holder = some i := (g.holder_iff i).2 ⟨_, left⟩
    simp only [Runner.finish, ha, ite_true, Runner.idle, Running, getElem?_set_eq_some left, reduceCtorEq, false_iff]
    rintro ⟨other, ⟨-, ho⟩ | ⟨hc, ho⟩⟩
    · cases ho
    · exact hc (g.unique ⟨other, ho⟩ ⟨_, left⟩)
  known := by
    intro e he
    rw [List.length_set]
    exact g.known e he
  accounts call p hp := by
    rcases (getElem?_set_eq_some left).1 hp with ⟨rfl, rfl⟩ | ⟨hc, hp⟩
    · obtain ⟨own, before, hs, hr⟩ := g.accounts _ _ left
      refine ⟨[], own, before, hs, ?_⟩
      rw [← hr, show own ++ before = s.log from hs.parts.symm]
      rfl
    · exact g.accounts call p hp

/-- **The guard holds through a move.** The call that holds it is the one in progress, before and after. -/
theorem Guarded.step (g : Guarded c w s) (h : Change c w s m t) : Guarded c w t := by
  cases h with
  | takes free => exact g.takes free
  | skips holder taken => exact g.skips
  | acts call e succeeds rest left => exact g.acts left
  | returns call result left => exact g.returns left

/-! ## Many moves -/

theorem run?_cons : run? c w s (m :: moves) = (s.step? c w m).bind fun t => run? c w t moves := rfl

theorem run?_append (more : List Move) : run? c w s (moves ++ more) = (run? c w s moves).bind (run? c w · more) :=
  List.foldlM_append

/-- what every move preserves lasts -/
theorem run?_preserves {P : Calls → Prop} (hP : ∀ {s t m}, Change c w s m t → P s → P t)
    (h : run? c w s moves = some t) (hs : P s) : P t := by
  induction moves generalizing s with
  | nil =>
    cases h
    exact hs
  | cons m moves ih =>
    rw [run?_cons, Option.bind_eq_some_iff] at h
    obtain ⟨u, hu, ht⟩ := h
    exact ih ht (hP (change_iff.2 hu) hs)

theorem Guarded.run (g : Guarded c w s) (h : run? c w s moves = some t) : Guarded c w t :=
  run?_preserves (fun hc g => g.step hc) h g

/-- a call that finds another one in progress returns without a run -/
theorem Guarded.begin_skips (g : Guarded c w s) (hi : s.Running i) :
    s.step? c w .begin = some { s with progress := s.progress ++ [.returned .skipped] } :=
  change_iff.1 (.skips i ((g.holder_iff i).2 hi))

/-- a call that finds nobody in progress takes the guard -/
theorem Guarded.begin_takes (g : Guarded c w s) (hn : ∀ i, ¬ s.Running i) :
    s.step? c w .begin = some
      { s with runner := ⟨some s.progress.length⟩, progress := s.progress ++ [.running (runSteps c).script] } := by
  apply change_iff.1
  apply Change.takes
  cases hh : s.runner.holder with
  | none => rfl
  | some call => exact absurd ((g.holder_iff call).1 hh) (hn call)

/-- nobody is in progress right after a call returned from its run, whatever came of it -/
theorem Guarded.free_of_finish (g : Guarded c w s) (h : s.step? c w (.finish i) = some t) : ¬ t.Running j := by
  have hc := change_iff.2 h
  apply (g.step hc).not_running
  cases hc with
  | returns call result left => simp [Runner.finish, (g.holder_iff i).2 ⟨_, left⟩, Runner.idle]

/-- a call can go to its end by itself -/
theorem exists_return {left : Script RunError Report} (h : s.progress[i]? = some (.running left)) :
    ∃ n t result, run? c w s (List.replicate n (.act i) ++ [.finish i]) = some t ∧ t.Returned i (.finished result) := by
  -- on what is left of the call; each step moves on to the rest, which may depend on the answer
  induction left generalizing s with
  | done result =>
    let u : Calls :=
      { s with runner := s.runner.finish i, progress := s.progress.set i (.returned (.finished result)) }
    have hc : Change c w s (.finish i) u := .returns i result h
    have hu : u.Returned i (.finished result) := (getElem?_set_eq_some h).2 (Or.inl ⟨rfl, rfl⟩)
    refine ⟨0, u, result, ?_, hu⟩
    rw [List.replicate_zero, List.nil_append, run?_cons, change_iff.1 hc]
    rfl
  | step e succeeds rest ih =>
    let u : Calls :=
      { s with
        progress := s.progress.set i (.running (rest w s.history))
        log := (i, ⟨e, succeeds w s.history⟩) :: s.log }
    have hc : Change c w s (.act i) u := .acts i e succeeds rest h
    have hu : u.progress[i]? = some (.running (rest w s.history)) :=
      (getElem?_set_eq_some h).2 (Or.inl ⟨rfl, rfl⟩)
    obtain ⟨n, t, result, hr, ht⟩ := ih w s.history hu
    refine ⟨n + 1, t, result, ?_, ht⟩
    rw [List.replicate_succ, List.cons_append, run?_cons, change_iff.1 hc]
    exact hr

/-! ## Runs of one runner -/

/-- **Runs never overlap.** However the calls so far began, acted and returned: at most one is in progress. A call that
begins then does no step at that moment; if another one is in progress, it returns at once without a run and never does
a step, and otherwise it takes the guard. A call in progress can always go to its end, and when it returns, whatever
came of its run, nobody is in progress. A run has the steps and the result of a run by itself in what it found. -/
theorem runs_never_overlap (h : run? c w idle moves = some s) :
    (∀ i j, s.Running i → s.Running j → i = j) ∧
    (∃ t, s.step? c w .begin = some t ∧ t.log = s.log ∧ ∀ later u, run? c w t later = some u →
      ((∃ i, s.Running i) → u.Returned s.progress.length .skipped ∧ ∀ e ∈ u.log, e.1 ≠ s.progress.length) ∧
      ((∀ i, ¬ s.Running i) → u.Taken s.progress.length)) ∧
    (∀ i, s.Running i → ∃ n t result,
      run? c w s (List.replicate n (.act i) ++ [.finish i]) = some t ∧ t.Returned i (.finished result)) ∧
    (∀ i t, s.step? c w (.finish i) = some t → ∀ j, ¬ t.Running j) ∧
    ∀ i result, s.Returned i (.finished result) → ∃ after own before, Stretch s.log i after own before ∧
      runConfig c w (before.map (·.2)) = (result, (own ++ before).map (·.2)) := by
  have g : Guarded c w s := guarded_idle.run h
  refine ⟨fun i j => g.unique, ?begins, ?ends, fun i t ht j => g.free_of_finish ht, fun i result => g.accounts i _⟩
  case begins =>
    by_cases hr : ∃ i, s.Running i
    · obtain ⟨i, hi⟩ := hr
      refine ⟨_, g.begin_skips hi, rfl, fun later u hu => ⟨fun _ => ?_, fun hn => absurd hi (hn i)⟩⟩
      have hs : u.Returned s.progress.length .skipped :=
        run?_preserves (fun hc => hc.returned) hu (getElem?_concat_eq_some.2 (Or.inr ⟨rfl, rfl⟩))
      exact ⟨hs, (g.skips.run hu).accounts _ _ hs⟩
    · have hn : ∀ i, ¬ s.Running i := fun i hi => hr ⟨i, hi⟩
      refine ⟨_, g.begin_takes hn, rfl, fun later u hu => ⟨fun hr' => absurd hr' hr, fun _ => ?_⟩⟩
      exact run?_preserves (fun hc => hc.taken) hu (Or.inl ⟨_, getElem?_concat_eq_some.2 (Or.inr ⟨rfl, rfl⟩)⟩)
  case ends =>
    rintro i ⟨left, hl⟩
    exact exists_return hl

/-- a world that refuses everything -/
def refusing : World where
  load _ _ := none
  configure _ _ := false
  connect _ _ := false
  ping _ := false
  query _ _ := .error (.driver none)
  stamp _ := ⟨[], []⟩
  send _ _ _ _ := .error .server
  save _ _ _ := false

/-- settings without posts -/
def nowhere : Config := ⟨⟨"", 25, "", ""⟩, ⟨"sqlite", "", 0, "", "", none⟩, [], ""⟩

/-- the first of four calls failed at its first step, the second one came before that and the others after it -/
def afterFailure : Calls where
  runner := ⟨some 2⟩
  progress := [.returned (.finished (.error (.transport .server))), .returned .skipped,
    .running (runSteps nowhere).script, .returned .skipped]
  log := [(0, ⟨.configure "" 25, false⟩)]

/-- the failed run gave the guard back, so the third call has it and a fifth one is skipped -/
theorem runs_never_overlap_after_failure :
    run? nowhere refusing idle [.begin, .begin, .act 0, .finish 0, .begin, .begin] = some afterFailure ∧
      afterFailure.Running 2 ∧ (∀ i j, afterFailure.Running i → afterFailure.Running j → i = j) ∧
      ∃ t, afterFailure.step? nowhere refusing .begin = some t ∧ t.Returned 4 .skipped := by
  have h : run? nowhere refusing idle [.begin, .begin, .act 0, .finish 0, .begin, .begin] = some afterFailure := rfl
  have hr : afterFailure.Running 2 := ⟨_, rfl⟩
  obtain ⟨one, ⟨t, ht, -, later⟩, -⟩ := runs_never_overlap h
  exact ⟨h, hr, one, t, ht, ((later [] t rfl).1 ⟨2, hr⟩).1⟩

/-! ## Two calls at the same time -/

/-- some moves lead here -/
def Reached (c : Config) (w : World) (s : Calls) : Prop := ∃ moves, run? c w idle moves = some s

theorem Reached.move (h : Reached c w s) (m : Move) : Reached c w (s.move c w m) := by
  unfold Calls.move
  cases hm : s.step? c w m with
  | none => exact h
  | some t =>
    obtain ⟨moves, hr⟩ := h
    refine ⟨moves ++ [m], ?_⟩
    rw [run?_append, hr, Option.bind_some, run?_cons, hm]
    rfl

theorem Reached.goOn {waits : Step → Bool} {left : Script RunError Report} (h : Reached c w s) :
    Reached c w (goOn c w i waits left s) := by
  induction left generalizing s with
  | done result => exact h.move _
  | step e succeeds rest ih =>
    unfold Calls.goOn
    split
    · exact h
    · exact ih w s.history (h.move _)

theorem Reached.proceed {waits : Step → Bool} (h : Reached c w s) : Reached c w (s.proceed c w i waits) := by
  unfold Calls.proceed
  split
  · exact h.goOn
  · exact h

theorem reached_pair : Reached c w (pair c w) :=
  (((Reached.move ⟨[], rfl⟩ .begin).proceed.move .begin).proceed).proceed

/-- what two calls at the same time come to are results of runs by themselves, unless they are skipped -/
theorem together_finished {result : Except RunError Report} (h : .finished result ∈ together c w) :
    ∃ before, (runConfig c w before).1 = result := by
  obtain ⟨moves, hr⟩ := reached_pair (c := c) (w := w)
  obtain ⟨p, hp, he⟩ := List.mem_filterMap.1 h
  cases p with
  | running left => cases he
  | returned r =>
    cases he
    obtain ⟨i, hi⟩ := List.getElem?_of_mem hp
    obtain ⟨after, own, before, -, hb⟩ := (guarded_idle.run hr).accounts i _ hi
    exact ⟨before.map (·.2), by rw [hb]⟩

end SheetPost.Delivery.Calls
