/-
What a message discloses of its recipients. The message of a post is composed before it is sent, from what the database
answers and from a stamp, and it names a recipient only if there is just one. So posts that differ in several recipients
have the same message, whatever was sent before and whatever came of it.

Main statement: two runs over posts that are alike, with the same answers, compose the same messages (`same_messages`).
-/
import Mathlib.Data.List.Forall2
import SheetPost.Proofs.Delivery.Counting
import SheetPost.Proofs.Mail.Entries

namespace SheetPost

/-! ## Histories -/

/-- the step hands a message to the mail server -/
def Step.sends : Step → Bool
  | .send _ _ _ => true
  | _ => false

/-- what happened but for the messages that were sent -/
def History.unsent (h : History) : History := h.filter fun e => !e.step.sends

variable {h h' : History}

/-- messages that were sent do not count -/
theorem Grew.unsent (hg : Grew (fun e => e.step.sends = true) h h') : h'.unsent = h.unsent := by
  obtain ⟨new, rfl, hnew⟩ := hg
  have hnone : new.filter (fun e => !e.step.sends) = [] :=
    List.filter_eq_nil_iff.2 fun e he => by simp [hnew e he]
  rw [History.unsent, List.filter_append, hnone, List.nil_append, History.unsent]

namespace Delivery

open SheetPost.Mail

variable {w w' : World} {run run' : History} {report : Report} {s s' : Spec} {specs specs' : List Spec}

/-! ## Messages -/

/-- the message of a post, from its relations on -/
def compose (s : Spec) : Act RunError Message := do
  let attachments ← Act.all exportFile s.files
  buildMessage s attachments

/-- a post is its message, and that message to each of its recipients -/
theorem deliver_of_ok {m : Message} (hm : compose s w h = (.ok m, h')) :
    deliver report s w h =
      (Act.all (sendTo s.sender m.bytes) s.recipients >>= fun _ => pure (report + s.work)) w h' := by
  unfold compose at hm
  rw [deliver_eq]
  rcases Act.ok_or_error (Act.all exportFile s.files) w h with ⟨attachments, h1, ha⟩ | ⟨e, h1, ha⟩
  · rw [Act.bind_of_ok ha] at hm
    rw [Act.bind_of_ok ha, Act.bind_of_ok hm]
  · rw [Act.bind_of_error ha] at hm
    cases hm

theorem deliver_of_error {e : RunError} (hm : compose s w h = (.error e, h')) :
    deliver report s w h = (.error e, h') := by
  unfold compose at hm
  rw [deliver_eq]
  rcases Act.ok_or_error (Act.all exportFile s.files) w h with ⟨attachments, h1, ha⟩ | ⟨e', h1, ha⟩
  · rw [Act.bind_of_ok ha] at hm
    rw [Act.bind_of_ok ha, Act.bind_of_error hm]
  · rw [Act.bind_of_error ha] at hm ⊢
    cases hm
    rfl

/-- what composing comes to, post by post, up to the first post that fails; what was counted before a post makes no
difference to it -/
def composed (w : World) : History → List Spec → List (Except RunError Message)
  | _, [] => []
  | h, s :: r => (compose s w h).1 ::
    match deliver .none s w h with
    | (.ok _, h') => composed w h' r
    | (.error _, _) => []

theorem grew_compose (s : Spec) (w : World) (h : History) :
    Grew (fun e => e.step.sends = false) h (compose s w h).2 :=
  Act.grew_bind (Act.grew_all fun _ _ _ => Act.grew_step fun _ => rfl) fun _ _ _ => Act.grew_step fun _ => rfl

theorem grew_sendings (sender : String) (bytes : List UInt8) (recipients : List String) (w : World) (h : History) :
    Grew (fun e => ∃ r ∈ recipients, e.step = .send sender r bytes) h
      (Act.all (sendTo sender bytes) recipients w h).2 :=
  Act.grew_all fun r hr _ => Act.grew_step fun _ => ⟨r, hr, rfl⟩

/-- behind its message, a post only sends that message, and only to its recipients -/
theorem grew_sent (s : Spec) (w : World) (h : History) :
    Grew (fun e => ∃ m, (compose s w h).1 = .ok m ∧ ∃ r ∈ s.recipients, e.step = .send s.sender r m.bytes)
      (compose s w h).2 (deliver .none s w h).2 := by
  rcases Act.ok_or_error (compose s) w h with ⟨m, h1, hm⟩ | ⟨e, h1, hm⟩
  · rw [deliver_of_ok hm, hm]
    refine Act.grew_bind ?_ fun _ _ _ => .refl _ _
    exact (grew_sendings s.sender m.bytes s.recipients w h1).mono fun e he => ⟨m, rfl, he⟩
  · rw [deliver_of_error hm, hm]
    exact .refl _ h1

theorem suffix_compose (s : Spec) (w : World) (h : History) : (compose s w h).2 <:+ (deliver .none s w h).2 :=
  (grew_sent s w h).suffix

/-- sending changes nothing else -/
theorem unsent_deliver (s : Spec) (w : World) (h : History) :
    (deliver .none s w h).2.unsent = (compose s w h).2.unsent := by
  refine Grew.unsent ((grew_sent s w h).mono fun e he => ?_)
  obtain ⟨m, -, r, -, he⟩ := he
  rw [he]
  rfl

/-- the message of a post is all that is sent for it -/
theorem grew_deliver (s : Spec) (w : World) (h : History) :
    Grew (fun e => e.step.sends = true →
      ∃ m, (compose s w h).1 = .ok m ∧ ∃ r ∈ s.recipients, e.step = .send s.sender r m.bytes)
      h (deliver .none s w h).2 := by
  refine ((grew_compose s w h).mono fun e he hs => ?_).trans ((grew_sent s w h).mono fun e he _ => he)
  rw [he] at hs
  cases hs

theorem extends_deliver (s : Spec) : (deliver .none s).Extends := fun w h => (grew_deliver s w h).suffix

theorem extends_deliverAll (specs : List Spec) : (deliverAll specs).Extends := by
  induction specs with
  | nil => exact Act.extends_pure _
  | cons s specs ih =>
    rw [deliverAll_cons]
    exact (extends_deliver s).bind fun _ => ih.bind fun _ => Act.extends_pure _

theorem suffix_deliver (s : Spec) (specs : List Spec) (w : World) (h : History) :
    (deliver .none s w h).2 <:+ (deliverAll (s :: specs) w h).2 := by
  rw [deliverAll_cons]
  exact Act.suffix_bind (fun _ => (extends_deliverAll specs).bind fun _ => Act.extends_pure _) w h

/-- the run behind a post that was delivered -/
theorem deliverAll_of_ok {a : Report} (hd : deliver .none s w h = (.ok a, h')) :
    (deliverAll (s :: specs) w h).2 = (deliverAll specs w h').2 := by
  rw [deliverAll_cons, Act.bind_of_ok hd]
  rcases Act.ok_or_error (deliverAll specs) w h' with ⟨b, h2, hr⟩ | ⟨e, h2, hr⟩
  · rw [Act.bind_of_ok hr, hr]
    rfl
  · rw [Act.bind_of_error hr, hr]

theorem composed_of_ok {a : Report} (hd : deliver .none s w h = (.ok a, h')) :
    composed w h (s :: specs) = (compose s w h).1 :: composed w h' specs := by
  rw [composed, hd]

theorem composed_of_error {e : RunError} (hd : deliver .none s w h = (.error e, h')) :
    composed w h (s :: specs) = [(compose s w h).1] := by
  rw [composed, hd]

/-! ## What is sent -/

/-- what is sent is the message of a post on its way to one of its recipients -/
def Carried (specs : List Spec) (messages : List (Except RunError Message)) (e : Event) : Prop :=
  e.step.sends = true → ∃ (k : Nat) (s : Spec) (m : Message), specs[k]? = some s ∧ messages[k]? = some (.ok m) ∧
    ∃ r ∈ s.recipients, e.step = .send s.sender r m.bytes

theorem grew_deliverAll (specs : List Spec) (w : World) (h : History) :
    Grew (Carried specs (composed w h specs)) h (deliverAll specs w h).2 := by
  induction specs generalizing h with
  | nil => exact .refl _ h
  | cons s specs ih =>
    have hfirst {messages : List (Except RunError Message)} :
        Grew (Carried (s :: specs) ((compose s w h).1 :: messages)) h (deliver .none s w h).2 := by
      refine (grew_deliver s w h).mono fun e he hs => ?_
      obtain ⟨m, hm, hr⟩ := he hs
      exact ⟨0, s, m, rfl, congrArg some hm, hr⟩
    rcases Act.ok_or_error (deliver .none s) w h with ⟨a, h1, hd⟩ | ⟨e, h1, hd⟩
    · rw [hd] at hfirst
      rw [composed_of_ok hd, deliverAll_of_ok hd]
      refine hfirst.trans ((ih h1).mono fun e he hs => ?_)
      obtain ⟨k, s', m, hk, hm, hr⟩ := he hs
      exact ⟨k + 1, s', m, hk, hm, hr⟩
    · have hrun : deliverAll (s :: specs) w h = (.error e, h1) := Act.bind_of_error hd
      rw [hd] at hfirst
      rw [composed_of_error hd, hrun]
      exact hfirst

/-! ## Two runs -/

/-- two worlds give the same answers and stamps where two runs have done the same, but for what they sent -/
structure SameAnswers (w w' : World) (run run' : History) : Prop where
  query : ∀ (h h' : History) sql ok ok', h.unsent = h'.unsent → ⟨.query sql, ok⟩ :: h <:+ run →
    ⟨.query sql, ok'⟩ :: h' <:+ run' → w.query h sql = w'.query h' sql
  stamp : ∀ (h h' : History) ok ok', h.unsent = h'.unsent → ⟨.build, ok⟩ :: h <:+ run →
    ⟨.build, ok'⟩ :: h' <:+ run' → w.stamp h = w'.stamp h'

/-- posts that are the same, or differ in their recipients where there are several on both sides -/
inductive Alike : Spec → Spec → Prop where
  | same (s : Spec) : Alike s s
  | several (s : Spec) (others : List String) (many : 2 ≤ s.recipients.length) (more : 2 ≤ others.length) :
    Alike s { s with recipients := others }

/-- as parts of two runs, two acts come to the same and do the same, but for what they send -/
def Agree {α : Type} (w w' : World) (run run' : History) (x y : Act RunError α) : Prop :=
  ∀ h h', h.unsent = h'.unsent → (x w h).2 <:+ run → (y w' h').2 <:+ run' →
    (x w h).1 = (y w' h').1 ∧ (x w h).2.unsent = (y w' h').2.unsent

variable {α β : Type} {x y : Act RunError α} {f g : α → Act RunError β}

theorem agree_pure (a : α) : Agree w w' run run' (pure a) (pure a) := fun _ _ hu _ _ => ⟨rfl, hu⟩

theorem agree_step {s : Step} {answer answer' : World → History → Except RunError α}
    (hs : ∀ (h h' : History) ok ok', h.unsent = h'.unsent → ⟨s, ok⟩ :: h <:+ run → ⟨s, ok'⟩ :: h' <:+ run' →
      answer w h = answer' w' h') : Agree w w' run run' (Act.step s answer) (Act.step s answer') := by
  intro h h' hu hr hr'
  have hsame := hs h h' _ _ hu hr hr'
  refine ⟨hsame, ?_⟩
  show History.unsent (⟨s, Act.succeeded (answer w h)⟩ :: h) = History.unsent (⟨s, Act.succeeded (answer' w' h')⟩ :: h')
  unfold History.unsent at *
  rw [hsame, List.filter_cons, List.filter_cons, hu]

/-- the second acts start from histories that the first acts left alike -/
theorem Agree.bind (hx : Agree w w' run run' x y) (hf : ∀ a, Agree w w' run run' (f a) (g a))
    (ef : ∀ a, (f a).Extends) (eg : ∀ a, (g a).Extends) : Agree w w' run run' (x >>= f) (y >>= g) := by
  intro h h' hu hr hr'
  obtain ⟨hsame, hu⟩ := hx h h' hu ((Act.suffix_bind ef w h).trans hr) ((Act.suffix_bind eg w' h').trans hr')
  rcases Act.ok_or_error x w h with ⟨a, h1, hx⟩ | ⟨e, h1, hx⟩ <;>
    rcases Act.ok_or_error y w' h' with ⟨b, h1', hy⟩ | ⟨e', h1', hy⟩ <;>
    rw [hx, hy] at hsame hu <;> cases hsame
  · rw [Act.bind_of_ok hx] at hr ⊢
    rw [Act.bind_of_ok hy] at hr' ⊢
    exact hf a h1 h1' hu hr hr'
  · rw [Act.bind_of_error hx, Act.bind_of_error hy]
    exact ⟨rfl, hu⟩

theorem agree_all (l : List α) (hf : ∀ a, Agree w w' run run' (f a) (g a)) (ef : ∀ a, (f a).Extends)
    (eg : ∀ a, (g a).Extends) : Agree w w' run run' (Act.all f l) (Act.all g l) := by
  induction l with
  | nil => exact agree_pure []
  | cons a l ih =>
    have hpure (bs : List β) : (pure bs : Act RunError (List β)).Extends := Act.extends_pure bs
    refine (hf a).bind (fun b => ih.bind (fun bs => agree_pure _) (fun _ => hpure _) fun _ => hpure _) ?_ ?_
    · exact fun b => (Act.extends_all ef l).bind fun _ => hpure _
    · exact fun b => (Act.extends_all eg l).bind fun _ => hpure _

/-- one recipient or several: only in the first case the message says who -/
theorem Alike.disclosed (h : Alike s s') : s.disclosed = s'.disclosed := by
  cases h with
  | same => rfl
  | several others many more =>
    have hnone {recipients : List String} (hl : 2 ≤ recipients.length) (t : Spec) :
        Spec.disclosed { t with recipients := recipients } = [] := by
      match recipients, hl with
      | _ :: _ :: _, _ => rfl
    exact (hnone many s).trans (hnone more s).symm

theorem agree_compose (hsame : SameAnswers w w' run run') (ha : Alike s s') :
    Agree w w' run run' (compose s) (compose s') := by
  have hfile (f : FileRequest) : Agree w w' run run' (exportFile f) (exportFile f) :=
    agree_step fun h h' ok ok' hu hr hr' => by rw [hsame.query h h' _ ok ok' hu hr hr']
  have hfiles : s.files = s'.files := by cases ha <;> rfl
  have hheaders : s.headers = s'.headers := by
    unfold Spec.headers
    rw [ha.disclosed]
    cases ha <;> rfl
  have hbody : s.body = s'.body := by cases ha <;> rfl
  unfold compose
  rw [hfiles]
  refine (agree_all _ hfile (fun _ => Act.extends_step _ _) fun _ => Act.extends_step _ _).bind (fun a => ?_)
    (fun _ => Act.extends_step _ _) fun _ => Act.extends_step _ _
  unfold buildMessage
  rw [hheaders, hbody]
  exact agree_step fun h h' ok ok' hu hr hr' => by rw [hsame.stamp h h' ok ok' hu hr hr']

/-- post by post: messages are alike as long as both runs go on, whatever was sent in between -/
theorem composed_alike (hs : List.Forall₂ Alike specs specs') (hsame : SameAnswers w w' run run')
    (hu : h.unsent = h'.unsent) (hr : (deliverAll specs w h).2 <:+ run) (hr' : (deliverAll specs' w' h').2 <:+ run')
    {k : Nat} {a b : Except RunError Message} (ha : (composed w h specs)[k]? = some a)
    (hb : (composed w' h' specs')[k]? = some b) : a = b := by
  induction hs generalizing h h' k with
  | nil => cases ha
  | @cons s s' specs specs' hpost _ ih =>
    have hdeliver := (suffix_deliver s specs w h).trans hr
    have hdeliver' := (suffix_deliver s' specs' w' h').trans hr'
    obtain ⟨hmessage, hunsent⟩ := agree_compose hsame hpost h h' hu ((suffix_compose s w h).trans hdeliver)
      ((suffix_compose s' w' h').trans hdeliver')
    rw [← unsent_deliver, ← unsent_deliver] at hunsent
    cases k with
    | zero =>
      cases ha
      cases hb
      exact hmessage
    | succ k =>
      -- a further message is there only if the post was delivered
      rcases Act.ok_or_error (deliver .none s) w h with ⟨a', h1, hd⟩ | ⟨e, h1, hd⟩
      · rcases Act.ok_or_error (deliver .none s') w' h' with ⟨b', h1', hd'⟩ | ⟨e, h1', hd'⟩
        · rw [hd, hd'] at hunsent
          rw [composed_of_ok hd] at ha
          rw [composed_of_ok hd'] at hb
          rw [deliverAll_of_ok hd] at hr
          rw [deliverAll_of_ok hd'] at hr'
          exact ih hunsent hr hr' ha hb
        · rw [composed_of_error hd'] at hb
          cases hb
      · rw [composed_of_error hd] at ha
        cases ha

/-! ## Recipients in the message -/

/-- what is behind a message that was composed -/
theorem exists_build {m : Message} (hm : (compose s w h).1 = .ok m) :
    ∃ (past : History) (attachments : List Attachment),
      Message.build (w.stamp past).boundaries (w.stamp past).date s.headers s.body attachments = .ok m := by
  rcases Act.ok_or_error (Act.all exportFile s.files) w h with ⟨attachments, h1, ha⟩ | ⟨e, h1, ha⟩
  · rw [compose, Act.bind_of_ok ha] at hm
    refine ⟨h1, attachments, ?_⟩
    simp only [buildMessage, Act.step] at hm
    cases hb : Message.build (w.stamp h1).boundaries (w.stamp h1).date s.headers s.body attachments with
    | error e =>
      rw [hb] at hm
      cases hm
    | ok m' =>
      rw [hb] at hm
      cases hm
      rfl
  · rw [compose, Act.bind_of_error ha] at hm
    cases hm

theorem renderRecipients_singleton (r : String) :
    Message.renderRecipients [r] = Message.renderMailbox .recipient r := by
  unfold Message.renderRecipients
  cases hr : Message.renderMailbox .recipient r with
  | error e => simp [hr, bind, Except.bind, Except.map]
  | ok v => simp [hr, bind, Except.bind, Except.map, pure, Except.pure, Text.join]

/-- a value of `To` that names the recipient if there is just one, and nobody otherwise. A reader of address lists finds
that recipient in it with the name and the address that were given, just if the address stands in its place. -/
structure Discloses (recipients : List String) (shown : List Char) : Prop where
  one : ∀ r, recipients = [r] → ∃ mailbox, Mailbox.parse r.toList = .ok mailbox ∧ shown = mailbox.render ∧
    Message.Gives r.toList mailbox.entry ∧
    (AddressList.read? (unfolded shown) = some [mailbox.entry] ↔ AddressList.Stands mailbox.entry)
  others : recipients.length ≠ 1 → shown = Message.undisclosed ∧ AddressList.read? (unfolded shown) = some []

theorem discloses_of_render {shown : List Char} (hb : Message.Unbroken s.headers)
    (h : Message.renderRecipients s.headers.recipients = .ok shown) : Discloses s.recipients shown where
  one r hr := by
    have hheaders : s.headers.recipients = [r] := by
      unfold Spec.headers Spec.disclosed
      rw [hr]
    have hbreak : hasBreak r.toList = false := hb.recipients r (hheaders ▸ List.mem_cons_self)
    rw [hheaders, renderRecipients_singleton] at h
    obtain ⟨mailbox, hm, rfl⟩ := Message.exists_of_renderMailbox h
    exact ⟨mailbox, hm, rfl, Message.gives_of_parse hm, Message.read?_render_iff hbreak hm⟩
  others hr := by
    have hheaders : s.headers.recipients = [] := by
      unfold Spec.headers Spec.disclosed
      split
      · next only hs => exact absurd (by rw [hs]; rfl) hr
      · rfl
    rw [hheaders] at h
    cases h
    exact ⟨rfl, Message.read?_undisclosed⟩

/-- the second line of a message is its `To` -/
theorem exists_to_line {m : Message} (hm : (compose s w h).1 = .ok m) :
    ∃ sender shown rest, m.text = Message.fieldLine ("From".toList, sender) ++
      (Message.fieldLine ("To".toList, shown) ++ rest) ∧ Discloses s.recipients shown := by
  obtain ⟨past, attachments, hb⟩ := exists_build hm
  obtain ⟨sender, shown, hchecked, -, hshown, -, htext⟩ := Message.exists_of_build hb
  obtain ⟨rest, htext⟩ : ∃ rest, m.text = Message.fieldLine ("From".toList, sender) ++
      (Message.fieldLine ("To".toList, shown) ++ rest) := by
    rw [htext]
    unfold Message.block Message.topFields
    rw [List.flatMap_cons, List.flatMap_cons, List.append_assoc, List.append_assoc]
    exact ⟨_, rfl⟩
  exact ⟨sender, shown, rest, htext, discloses_of_render (Message.unbroken_of_checked hchecked) hshown⟩

/-- a reader of a message finds the same `To`, if boundaries are drawn as tokens and dates are in one line -/
theorem exists_lookup_to {m : Message} (hm : (compose s w h).1 = .ok m)
    (htokens : ∀ h, ∀ b ∈ (w.stamp h).boundaries, Message.IsToken b)
    (hdates : ∀ h, hasBreak (w.stamp h).date = false) :
    ∃ fields rest shown, Message.readBlock? m.text = some (fields, rest) ∧
      fields.lookup "To".toList = some (unfolded shown) ∧ Discloses s.recipients shown := by
  obtain ⟨past, attachments, hb⟩ := exists_build hm
  obtain ⟨sender, shown, hchecked, hsender, hshown, hpick, htext⟩ := Message.exists_of_build hb
  have htoken := htokens past m.boundary (List.mem_of_mem_take (List.mem_of_find?_eq_some hpick))
  have hunbroken := Message.unbroken_of_checked hchecked
  have hfields := Message.isField_topFields
    (folded_renderMailbox hunbroken.sender hsender) (Message.folded_renderRecipients hunbroken.recipients hshown)
    hunbroken.subject (hdates past) htoken
  have hread := Message.readBlock?_block (by simp [Message.topFields]) hfields
    (Message.multipart m.boundary (Message.bodyPart s.body :: attachments.map Message.attachmentPart))
  rw [← htext] at hread
  refine ⟨_, _, shown, hread, ?_, discloses_of_render hunbroken hshown⟩
  rw [Message.lookup_seen]
  rfl

/-! ## Posts that are reached -/

/-- a post is reached, and its message is composed, just if all posts before it were delivered -/
theorem getElem?_composed_iff {k : Nat} {a : Except RunError Message} :
    (composed w h specs)[k]? = some a ↔ ∃ s report h1, specs[k]? = some s ∧
      deliverAll (specs.take k) w h = (.ok report, h1) ∧ (compose s w h1).1 = a := by
  induction specs generalizing h k with
  | nil => simp [composed]
  | cons s specs ih =>
    cases k with
    | zero =>
      constructor
      · intro ha
        exact ⟨s, _, h, rfl, rfl, Option.some.inj ha⟩
      · rintro ⟨s', report, h1, hs, hd, rfl⟩
        cases hs
        cases hd
        rfl
    | succ k =>
      rcases Act.ok_or_error (deliver .none s) w h with ⟨report, h1, hd⟩ | ⟨e, h1, hd⟩
      · have hrun : deliverAll ((s :: specs).take (k + 1)) w h =
            (deliverAll (specs.take k) >>= fun b => pure (report + b)) w h1 := by
          rw [List.take_succ_cons, deliverAll_cons, Act.bind_of_ok hd]
        rw [composed_of_ok hd, List.getElem?_cons_succ, List.getElem?_cons_succ, ih, hrun]
        rcases Act.ok_or_error (deliverAll (specs.take k)) w h1 with ⟨b, h2, hr⟩ | ⟨e, h2, hr⟩
        · rw [Act.bind_of_ok hr, hr]
          constructor
          · rintro ⟨s', report', h3, hs, hd, ha⟩
            cases hd
            exact ⟨s', _, h2, hs, rfl, ha⟩
          · rintro ⟨s', report', h3, hs, hd, ha⟩
            cases hd
            exact ⟨s', b, h2, hs, rfl, ha⟩
        · simp [Act.bind_of_error hr, hr]
      · have hrun : deliverAll ((s :: specs).take (k + 1)) w h = (.error e, h1) := Act.bind_of_error hd
        rw [composed_of_error hd, hrun]
        simp

/-- **Recipients are not disclosed to each other.** If two lists of posts differ only in recipients of posts that have
several in both, and the two runs get the same answers and stamps, then both compose the same message for every post
that both reach. All that is sent for a post is that message, and only to its recipients. It names a recipient just if
there is only one. -/
theorem same_messages (hs : List.Forall₂ Alike specs specs')
    (hsame : SameAnswers w w' (deliverAll specs w h).2 (deliverAll specs' w' h).2) :
    (∀ (k : Nat) a b, (composed w h specs)[k]? = some a → (composed w' h specs')[k]? = some b → a = b) ∧
    Grew (Carried specs (composed w h specs)) h (deliverAll specs w h).2 ∧
    Grew (Carried specs' (composed w' h specs')) h (deliverAll specs' w' h).2 ∧
    ∀ (k : Nat) s m, specs[k]? = some s → (composed w h specs)[k]? = some (.ok m) →
      ∃ sender shown rest, m.text = Message.fieldLine ("From".toList, sender) ++
        (Message.fieldLine ("To".toList, shown) ++ rest) ∧ Discloses s.recipients shown := by
  refine ⟨fun k a b => composed_alike hs hsame rfl (List.suffix_refl _) (List.suffix_refl _),
    grew_deliverAll specs w h, grew_deliverAll specs' w' h, fun k s m hk hm => ?_⟩
  obtain ⟨s', report, h1, hk', -, hm⟩ := getElem?_composed_iff.1 hm
  rw [hk] at hk'
  cases hk'
  exact exists_to_line hm

/-- a world whose answers never change -/
def steady : World where
  load _ _ := none
  configure _ _ := true
  connect _ _ := true
  ping _ := true
  query _ _ := .error (.driver none)
  stamp _ := ⟨["=_0123456789abcdef0123456789abcdef".toList], "Sun, 18 Oct 2026 09:00:00 +0000".toList⟩
  send _ _ _ _ := .ok ()
  save _ _ _ := true

theorem same_messages_two_or_three :
    ∃ m, (composed steady [] [⟨"ops@example.com", "News", "Hello", [], ["a@example.com", "b@example.com"]⟩])[0]? =
        some (.ok m) ∧
      (composed steady [] [⟨"ops@example.com", "News", "Hello", [],
        ["c@example.com", "d@example.com", "e@example.com"]⟩])[0]? = some (.ok m) := by
  let two : Spec := ⟨"ops@example.com", "News", "Hello", [], ["a@example.com", "b@example.com"]⟩
  let three : Spec := { two with recipients := ["c@example.com", "d@example.com", "e@example.com"] }
  have hbuilt : (compose two steady []).1.isOk = true := by decide +kernel
  have halike : Alike two three := .several two _ (by decide) (by decide)
  have hanswers : SameAnswers steady steady (deliverAll [two] steady []).2 (deliverAll [three] steady []).2 :=
    ⟨fun _ _ _ _ _ _ _ _ => rfl, fun _ _ _ _ _ _ _ => rfl⟩
  obtain ⟨hsame, -⟩ := same_messages (.cons halike .nil) hanswers
  cases hm : (compose two steady []).1 with
  | error e =>
    rw [hm] at hbuilt
    cases hbuilt
  | ok m => exact ⟨m, congrArg some hm, congrArg some ((hsame 0 _ _ rfl rfl).symm.trans hm)⟩

end Delivery

end SheetPost
