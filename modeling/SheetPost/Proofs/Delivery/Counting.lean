/-
What a run counts. Each loop of a run counts its turns, on top of what was counted before it; what the turns do does not
depend on the count. So a loop is its turns one after the other with their number added at the end.

Main statement: a post does the same whatever was counted before it, and a post that is delivered adds its relations, one
message and its recipients (`deliver_eq`).
-/
import SheetPost.Delivery.Run
import SheetPost.Proofs.World.Act

namespace SheetPost.Delivery

/-! ## Reports -/

namespace Report

/-- the work of one part of a run and of another one -/
def plus (a b : Report) : Report := ⟨a.exports + b.exports, a.messages + b.messages, a.deliveries + b.deliveries⟩

instance : Add Report := ⟨plus⟩

theorem add_def (a b : Report) :
    a + b = ⟨a.exports + b.exports, a.messages + b.messages, a.deliveries + b.deliveries⟩ := rfl

@[simp]
theorem add_none (a : Report) : a + none = a := rfl

@[simp]
theorem none_add (a : Report) : none + a = a := by simp [add_def, none]

protected theorem add_assoc (a b c : Report) : a + b + c = a + (b + c) := by simp [add_def, Nat.add_assoc]

end Report

/-- the work that a post is -/
def Spec.work (s : Spec) : Report := ⟨s.files.length, 1, s.recipients.length⟩

/-! ## Loops -/

theorem foldlM_exportNext (files : List FileRequest) (attachments : List Mail.Attachment) (report : Report) :
    files.foldlM exportNext (attachments, report) = do
      let more ← Act.all exportFile files
      return (attachments ++ more, report + ⟨files.length, 0, 0⟩) := by
  induction files generalizing attachments report with
  | nil => simp [Act.all, Report.add_def]
  | cons f files ih =>
    have hcount : report.exported + ⟨files.length, 0, 0⟩ = report + ⟨(f :: files).length, 0, 0⟩ := by
      simp [Report.add_def, Report.exported, Nat.add_right_comm, Nat.add_assoc]
    simp [List.foldlM_cons, exportNext, Act.all, ih, hcount]

theorem foldlM_sendNext (sender : String) (message : List UInt8) (recipients : List String) (report : Report) :
    recipients.foldlM (sendNext sender message) report = do
      let _ ← Act.all (sendTo sender message) recipients
      return report + ⟨0, 0, recipients.length⟩ := by
  induction recipients generalizing report with
  | nil => simp [Act.all, Report.add_def]
  | cons r recipients ih =>
    have hcount : report.delivered + ⟨0, 0, recipients.length⟩ = report + ⟨0, 0, (r :: recipients).length⟩ := by
      simp [Report.add_def, Report.delivered, Nat.add_right_comm, Nat.add_assoc]
    simp [List.foldlM_cons, sendNext, Act.all, ih, hcount]

/-! ## Posts -/

/-- **A post counts what it did**, on top of what was counted before, and does not look at that. -/
theorem deliver_eq (report : Report) (s : Spec) : deliver report s = do
    let attachments ← Act.all exportFile s.files
    let message ← buildMessage s attachments
    let _ ← Act.all (sendTo s.sender message.bytes) s.recipients
    return report + s.work := by
  have hcount : (report + ⟨s.files.length, 0, 0⟩).built + ⟨0, 0, s.recipients.length⟩ = report + s.work := by
    simp [Report.add_def, Report.built, Spec.work]
  simp [deliver, foldlM_exportNext, foldlM_sendNext, hcount]

theorem deliver_add (report : Report) (s : Spec) : deliver report s = do
    let work ← deliver .none s
    return report + work := by
  simp [deliver_eq]

theorem foldlM_deliver (specs : List Spec) (report : Report) : specs.foldlM deliver report = do
    let work ← deliverAll specs
    return report + work := by
  unfold deliverAll
  induction specs generalizing report with
  | nil => simp
  | cons s specs ih =>
    rw [List.foldlM_cons, List.foldlM_cons, deliver_add, bind_assoc, bind_assoc]
    refine bind_congr fun work => ?_
    rw [pure_bind, ih, ih work, bind_assoc]
    refine bind_congr fun more => ?_
    rw [pure_bind, Report.add_assoc]

/-- a run is its first post, and the run over the others -/
theorem deliverAll_cons (s : Spec) (specs : List Spec) : deliverAll (s :: specs) = do
    let work ← deliver .none s
    let more ← deliverAll specs
    return work + more :=
  bind_congr fun work => foldlM_deliver specs work

end SheetPost.Delivery
