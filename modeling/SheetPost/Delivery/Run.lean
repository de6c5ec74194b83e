/-
One run: for each post in order, its relations are exported, its message is built once, and the message goes to each
recipient in turn. The first failure ends the run. Recipients who have the message by then keep it, later ones and
later posts get nothing. What was done is counted along the way, one by one.
-/
import SheetPost.Delivery.Spec
import SheetPost.Relation.Export
import SheetPost.World.Act

namespace SheetPost.Delivery

/-! ## Reports and errors -/

/-- the work that a run did -/
structure Report where
  exports : Nat
  messages : Nat
  deliveries : Nat
deriving DecidableEq, Repr

namespace Report

/-- no work -/
def none : Report := ⟨0, 0, 0⟩

/-- one more relation was exported -/
def exported (r : Report) : Report := { r with exports := r.exports + 1 }

/-- one more message was built -/
def built (r : Report) : Report := { r with messages := r.messages + 1 }

/-- one more recipient has a message -/
def delivered (r : Report) : Report := { r with deliveries := r.deliveries + 1 }

end Report

/-- the step of a run that failed, and why -/
inductive RunError where
  | transport (cause : Mail.SendError)
  | connection (cause : Relation.SourceError)
  | table (relation : String) (cause : Relation.ExportError)
  | message (cause : Mail.BuildError)
  | sending (recipient : String) (cause : Mail.SendError)
deriving DecidableEq, Repr

namespace RunError

/-- which step failed -/
def context : RunError → String
  | .transport _ => "failed to configure smtp transport"
  | .connection _ => "failed to connect to the database"
  | .table relation _ => "failed to export table " ++ relation
  | .message _ => "failed to build message"
  | .sending recipient _ => "failed to send email to " ++ recipient

/-- the wordings from the failed step down to the first cause -/
def trail (e : RunError) : List String :=
  e.context :: match e with
    | .transport cause => cause.trail
    | .connection cause => cause.trail
    | .table _ cause => cause.trail
    | .message cause => [cause.message]
    | .sending _ cause => cause.trail

/-- the trail in one line -/
def line (e : RunError) : String := String.intercalate ": " e.trail

end RunError

/-! ## Steps of a run -/

/-- the relation as a file -/
def exportFile (f : FileRequest) : Act RunError Mail.Attachment :=
  Act.step (.query (Relation.selectAll f.relation)) fun w h =>
    (Relation.attachment f.relation f.fileName (w.query h (Relation.selectAll f.relation))).mapError (.table f.relation)

/-- whom a message names as its recipients: nobody, unless there is only one -/
def Spec.disclosed (s : Spec) : List String :=
  match s.recipients with
  | [only] => [only]
  | _ => []

/-- what the message of a post shows -/
def Spec.headers (s : Spec) : Mail.Headers := ⟨s.sender, s.disclosed, s.subject⟩

/-- the message of a post -/
def buildMessage (s : Spec) (attachments : List Mail.Attachment) : Act RunError Mail.Message :=
  Act.step .build fun w h =>
    let stamp := w.stamp h
    (Mail.Message.build stamp.boundaries stamp.date s.headers s.body attachments).mapError .message

/-- the message of a post on its way to one recipient -/
def sendTo (sender : String) (message : List UInt8) (recipient : String) : Act RunError Unit :=
  Act.step (.send sender recipient message) fun w h =>
    (w.send h sender recipient message).mapError (.sending recipient)

/-! ## Runs -/

/-- one more file of a post, behind those that there are -/
def exportNext (done : List Mail.Attachment × Report) (f : FileRequest) :
    Act RunError (List Mail.Attachment × Report) := do
  let attachment ← exportFile f
  return (done.1 ++ [attachment], done.2.exported)

/-- one more recipient of a message -/
def sendNext (sender : String) (message : List UInt8) (report : Report) (recipient : String) :
    Act RunError Report := do
  sendTo sender message recipient
  return report.delivered

/-- one post from its relations to its last recipient, on top of what was done before it -/
def deliver (report : Report) (s : Spec) : Act RunError Report := do
  let (attachments, report) ← s.files.foldlM exportNext ([], report)
  let message ← buildMessage s attachments
  s.recipients.foldlM (sendNext s.sender message.bytes) report.built

/-- all posts -/
def deliverAll (specs : List Spec) : Act RunError Report := specs.foldlM deliver .none

end SheetPost.Delivery
