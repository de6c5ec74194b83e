/-
The order of a run. A run of posts is planned as one line of tasks: for each post its relations, its message, and its
recipients. What a task is about may depend on all answers before it, so the plan is made along a history in which every
task passes (`plan`); behind the first task that fails nothing of it is ever looked at.

Main statement: a run does the tasks of its plan up to the first that fails, that one included, and nothing else; it
succeeds just if none fails, and an error names the task that failed (`deliverAll_follows_plan`). No assumption is made
on the world: its answers may be anything, at every step.
-/
import Mathlib.Data.List.Basic
import SheetPost.Proofs.Delivery.Counting

namespace SheetPost.Delivery

/-! ## Tasks -/

/-- one step of a run with what it is about -/
inductive Task where
  | table (file : FileRequest)
  | message (post : Spec) (attachments : List Mail.Attachment)
  | sending (sender recipient : String) (bytes : List UInt8)

namespace Task

/-- what others see of a task -/
def step : Task → Step
  | table file => .query (Relation.selectAll file.relation)
  | message _ _ => .build
  | sending sender recipient bytes => .send sender recipient bytes

/-- how an error names the task -/
def context : Task → String
  | table file => "failed to export table " ++ file.relation
  | message _ _ => "failed to build message"
  | sending _ recipient _ => "failed to send email to " ++ recipient

end Task

/-- a task fails with an error; a relation that was read may still have rows that do not fit, or make no workbook -/
inductive Fails (w : World) (h : History) : Task → RunError → Prop where
  | unread {f : FileRequest} {cause : Relation.SourceError} :
    w.query h (Relation.selectAll f.relation) = .error cause →
    Fails w h (.table f) (.table f.relation (.source f.relation cause))
  | ragged {f : FileRequest} {rows : Relation.Rows} {cause : Relation.ExportError} :
    w.query h (Relation.selectAll f.relation) = .ok rows → rows.document f.relation = .error cause →
    Fails w h (.table f) (.table f.relation cause)
  | unwritten {f : FileRequest} {rows : Relation.Rows} {d : Sheet.Document} {cause : Relation.ExportError} :
    w.query h (Relation.selectAll f.relation) = .ok rows → rows.document f.relation = .ok d →
    Relation.workbook d = .error cause → Fails w h (.table f) (.table f.relation cause)
  | unbuilt {s : Spec} {attachments : List Mail.Attachment} {cause : Mail.BuildError} :
    Mail.Message.build (w.stamp h).boundaries (w.stamp h).date s.headers s.body attachments = .error cause →
    Fails w h (.message s attachments) (.message cause)
  | refused {sender recipient : String} {bytes : List UInt8} {cause : Mail.SendError} :
    w.send h sender recipient bytes = .error cause →
    Fails w h (.sending sender recipient bytes) (.sending recipient cause)

/-- the history behind tasks that passed -/
def passed : History → List Task → History
  | h, [] => h
  | h, t :: ts => passed (⟨t.step, true⟩ :: h) ts

/-- no task fails, each of them behind the ones before it -/
def Passes (w : World) : History → List Task → Prop
  | _, [] => True
  | h, t :: ts => (∀ e, ¬ Fails w h t e) ∧ Passes w (⟨t.step, true⟩ :: h) ts

/-! ## Plans -/

/-- the files of relations, up to the first that cannot be exported -/
def exported (w : World) : History → List FileRequest → List Mail.Attachment
  | _, [] => []
  | h, f :: fs =>
    match Relation.attachment f.relation f.fileName (w.query h (Relation.selectAll f.relation)) with
    | .ok a => a :: exported w (⟨(Task.table f).step, true⟩ :: h) fs
    | .error _ => []

/-- the bytes of the message of a post, if it can be built -/
def written (w : World) (h : History) (s : Spec) (attachments : List Mail.Attachment) : List UInt8 :=
  match Mail.Message.build (w.stamp h).boundaries (w.stamp h).date s.headers s.body attachments with
  | .ok m => m.bytes
  | .error _ => []

/-- the tasks of a post: its relations, its message, and that message to each of its recipients -/
def Spec.plan (s : Spec) (w : World) (h : History) : List Task :=
  let tables := s.files.map .table
  let attachments := exported w h s.files
  tables ++ .message s attachments ::
    s.recipients.map fun r => .sending s.sender r (written w (passed h tables) s attachments)

/-- the tasks of posts, one post behind the other -/
def plan (w : World) : History → List Spec → List Task
  | _, [] => []
  | h, s :: r => s.plan w h ++ plan w (passed h (s.plan w h)) r

/-! ## Lists of tasks -/

variable {w : World} {h : History} {t : Task} {ts us : List Task}

theorem passed_append (h : History) (ts us : List Task) : passed h (ts ++ us) = passed (passed h ts) us := by
  induction ts generalizing h with
  | nil => rfl
  | cons t ts ih => exact ih _

theorem passes_append : Passes w h (ts ++ us) ↔ Passes w h ts ∧ Passes w (passed h ts) us := by
  induction ts generalizing h with
  | nil => exact (iff_of_eq (true_and _)).symm
  | cons t ts ih => rw [List.cons_append, Passes, Passes, ih, passed, and_assoc]

/-- what comes of tasks: the result behind all of them, or the error of the first that fails -/
inductive Outcome {α : Type} (w : World) (a : α) (h : History) : List Task → Except RunError α × History → Prop where
  | finished {ts : List Task} : Passes w h ts → Outcome w a h ts (.ok a, passed h ts)
  | stopped {t : Task} {e : RunError} (done rest : List Task) : Passes w h done → Fails w (passed h done) t e →
    Outcome w a h (done ++ t :: rest) (.error e, ⟨t.step, false⟩ :: passed h done)

variable {α β : Type} {a : α} {b : β}

/-- acts one after the other do their tasks one after the other -/
theorem Outcome.bind {x : Act RunError α} {f : α → Act RunError β} (hx : Outcome w a h ts (x w h))
    (hf : Passes w h ts → Outcome w b (passed h ts) us (f a w (passed h ts))) :
    Outcome w b h (ts ++ us) ((x >>= f) w h) := by
  have hbind : (x >>= f) w h = Act.bind x f w h := rfl
  rw [hbind, Act.bind]
  generalize x w h = r at hx
  cases hx with
  | stopped done rest hd ht =>
    rw [List.append_assoc, List.cons_append]
    exact .stopped done (rest ++ us) hd ht
  | finished hp =>
    have hf := hf hp
    simp only
    generalize f a w (passed h ts) = r at hf
    cases hf with
    | finished hq =>
      rw [← passed_append]
      exact .finished (passes_append.2 ⟨hp, hq⟩)
    | stopped done rest hd ht =>
      rw [← passed_append] at ht ⊢
      rw [← List.append_assoc]
      exact .stopped (ts ++ done) rest (passes_append.2 ⟨hp, hd⟩) ht

theorem Outcome.pure (a : α) : Outcome w a h [] ((pure a : Act RunError α) w h) := .finished trivial

theorem Outcome.map {x : Act RunError α} {f : α → β} (hx : Outcome w a h ts (x w h)) :
    Outcome w (f a) h ts ((x >>= fun c => Pure.pure (f c)) w h) := by
  have := hx.bind (f := fun c => Pure.pure (f c)) fun _ => Outcome.pure (f a)
  rwa [List.append_nil] at this

/-- a step does its task if it fails with what the task fails with -/
theorem Outcome.step {answer : World → History → Except RunError α} {c : α} (hc : answer w h = .ok c)
    (hpass : ∀ e, ¬ Fails w h t e) : Outcome w c h [t] (Act.step t.step answer w h) := by
  have hstep : Act.step t.step answer w h = (.ok c, passed h [t]) := by
    rw [Act.step, hc]
    rfl
  rw [hstep]
  exact .finished ⟨hpass, trivial⟩

theorem Outcome.fail {answer : World → History → Except RunError α} {e : RunError} (he : answer w h = .error e)
    (hfail : Fails w h t e) (rest : List Task) (f : α → Act RunError β) :
    Outcome w b h (t :: rest) ((Act.step t.step answer >>= f) w h) := by
  have hstep : (Act.step t.step answer >>= f) w h = (.error e, ⟨t.step, false⟩ :: h) := by
    show Act.bind (Act.step t.step answer) f w h = _
    rw [Act.bind, Act.step, he]
    rfl
  rw [hstep]
  exact .stopped [] rest trivial hfail

/-! ## Steps of a post -/

theorem attachment_eq_error_iff {relation fileName : String} {answer : Except Relation.SourceError Relation.Rows}
    {cause : Relation.ExportError} :
    Relation.attachment relation fileName answer = .error cause ↔
      (∃ c, answer = .error c ∧ cause = .source relation c) ∨
      ∃ rows, answer = .ok rows ∧ (rows.document relation = .error cause ∨
        ∃ d, rows.document relation = .ok d ∧ Relation.workbook d = .error cause) := by
  cases answer with
  | error c => simp [Relation.attachment, Relation.document, bind, Except.bind, eq_comm]
  | ok rows =>
    cases hd : rows.document relation with
    | error c => simp [Relation.attachment, Relation.document, bind, Except.bind, hd]
    | ok d =>
      cases hw : Relation.workbook d with
      | error c => simp [Relation.attachment, Relation.document, bind, Except.bind, hd, hw]
      | ok content => simp [Relation.attachment, Relation.document, bind, Except.bind, pure, Except.pure, hd, hw]

/-- the export of a relation fails just if there is no file of it -/
theorem fails_table_iff {f : FileRequest} {e : RunError} :
    Fails w h (.table f) e ↔ ∃ cause,
      Relation.attachment f.relation f.fileName (w.query h (Relation.selectAll f.relation)) = .error cause ∧
        e = .table f.relation cause := by
  constructor
  · intro hf
    cases hf with
    | unread hq => exact ⟨_, attachment_eq_error_iff.2 (.inl ⟨_, hq, rfl⟩), rfl⟩
    | ragged hq hd => exact ⟨_, attachment_eq_error_iff.2 (.inr ⟨_, hq, .inl hd⟩), rfl⟩
    | unwritten hq hd hw => exact ⟨_, attachment_eq_error_iff.2 (.inr ⟨_, hq, .inr ⟨_, hd, hw⟩⟩), rfl⟩
  · intro h
    obtain ⟨cause, ha, rfl⟩ := h
    rcases attachment_eq_error_iff.1 ha with ⟨c, hq, rfl⟩ | ⟨rows, hq, hd | ⟨d, hd, hw⟩⟩
    · exact .unread hq
    · exact .ragged hq hd
    · exact .unwritten hq hd hw

theorem outcome_exports (w : World) (h : History) (fs : List FileRequest) :
    Outcome w (exported w h fs) h (fs.map .table) (Act.all exportFile fs w h) := by
  induction fs generalizing h with
  | nil => exact .pure []
  | cons f fs ih =>
    rw [exported, List.map_cons]
    cases ha : Relation.attachment f.relation f.fileName (w.query h (Relation.selectAll f.relation)) with
    | error cause =>
      refine Outcome.fail ?_ (fails_table_iff.2 ⟨cause, ha, rfl⟩) _ _
      simp only [ha, Except.mapError]
    | ok a =>
      have hfile : Outcome w a h [.table f] (exportFile f w h) := by
        apply Outcome.step
        · simp only [ha, Except.mapError]
        · intro e hf
          obtain ⟨cause, hc, -⟩ := fails_table_iff.1 hf
          rw [ha] at hc
          cases hc
      exact hfile.bind fun _ => (ih _).map

theorem outcome_sendings (w : World) (h : History) (sender : String) (bytes : List UInt8) (recipients : List String) :
    Outcome w (recipients.map fun _ => ()) h (recipients.map fun r => .sending sender r bytes)
      (Act.all (sendTo sender bytes) recipients w h) := by
  induction recipients generalizing h with
  | nil => exact .pure []
  | cons r recipients ih =>
    rw [List.map_cons, List.map_cons]
    cases hs : w.send h sender r bytes with
    | error cause =>
      refine Outcome.fail ?_ (.refused hs) _ _
      simp only [hs, Except.mapError]
    | ok u =>
      have hsend : Outcome w () h [.sending sender r bytes] (sendTo sender bytes r w h) := by
        apply Outcome.step
        · simp only [hs, Except.mapError]
        · intro e hf
          cases hf with
          | refused hc =>
            rw [hs] at hc
            cases hc
      exact hsend.bind fun _ => (ih _).map

theorem outcome_deliver (w : World) (h : History) (report : Report) (s : Spec) :
    Outcome w (report + s.work) h (s.plan w h) (deliver report s w h) := by
  rw [deliver_eq]
  refine (outcome_exports w h s.files).bind ?_
  intro _
  generalize exported w h s.files = attachments
  generalize passed h (s.files.map Task.table) = h'
  cases hm : Mail.Message.build (w.stamp h').boundaries (w.stamp h').date s.headers s.body attachments with
  | error cause =>
    refine Outcome.fail ?_ (.unbuilt hm) _ _
    simp only [hm, Except.mapError]
  | ok m =>
    have hbuild : Outcome w m h' [.message s attachments] (buildMessage s attachments w h') := by
      apply Outcome.step
      · simp only [hm, Except.mapError]
      · intro e hf
        cases hf with
        | unbuilt hc =>
          rw [hm] at hc
          cases hc
    have hbytes : written w h' s attachments = m.bytes := by rw [written, hm]
    rw [hbytes]
    exact hbuild.bind fun _ => (outcome_sendings w _ s.sender m.bytes s.recipients).map (f := fun _ => report + s.work)

/-- the work of posts: the files of all of them, how many they are, and the recipients of all of them -/
def total (specs : List Spec) : Report :=
  ⟨(specs.flatMap Spec.files).length, specs.length, (specs.flatMap Spec.recipients).length⟩

theorem outcome_deliverAll (w : World) (h : History) (specs : List Spec) :
    Outcome w (total specs) h (plan w h specs) (deliverAll specs w h) := by
  induction specs generalizing h with
  | nil => exact .pure _
  | cons s specs ih =>
    have htotal : total (s :: specs) = .none + s.work + total specs := by
      simp [total, Report.add_def, Report.none, Spec.work, Nat.add_comm]
    rw [htotal, deliverAll_cons]
    exact (outcome_deliver w h .none s).bind fun _ => (ih _).map

/-! ## Runs -/

theorem Fails.context {e : RunError} (hf : Fails w h t e) : e.context = t.context := by
  cases hf <;> rfl

theorem Outcome.ok_iff {r : Except RunError α × History} (ho : Outcome w a h ts r) :
    (∃ b, r.1 = .ok b) ↔ Passes w h ts := by
  cases ho with
  | finished hp => exact ⟨fun _ => hp, fun _ => ⟨a, rfl⟩⟩
  | stopped done rest hd ht =>
    constructor
    · intro h
      obtain ⟨b, hb⟩ := h
      cases hb
    · intro hp
      exact absurd ht ((passes_append.1 hp).2.1 _)

/-- **A run follows its plan and stops at the first failure**: it succeeds just if no task fails, and then reports all
the work there was. Otherwise its steps are those of the tasks up to the first that fails, and the error names that
task. -/
theorem deliverAll_follows_plan (w : World) (h : History) (specs : List Spec) :
    ((∃ r, (deliverAll specs w h).1 = .ok r) ↔ Passes w h (plan w h specs)) ∧
    ((Passes w h (plan w h specs) ∧
        deliverAll specs w h = (.ok ⟨(specs.flatMap Spec.files).length, specs.length,
          (specs.flatMap Spec.recipients).length⟩, passed h (plan w h specs))) ∨
      ∃ done t rest e, plan w h specs = done ++ t :: rest ∧ Passes w h done ∧ Fails w (passed h done) t e ∧
        e.context = t.context ∧ deliverAll specs w h = (.error e, ⟨t.step, false⟩ :: passed h done)) := by
  have ho := outcome_deliverAll w h specs
  refine ⟨ho.ok_iff, ?_⟩
  generalize deliverAll specs w h = r at ho
  generalize plan w h specs = ts at ho
  cases ho with
  | finished hp => exact .inl ⟨hp, rfl⟩
  | @stopped t e done rest hd ht => exact .inr ⟨done, t, rest, e, rfl, hd, ht, ht.context, rfl⟩

end SheetPost.Delivery
