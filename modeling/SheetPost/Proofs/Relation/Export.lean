/-
What the export of a relation gives. It asks one query, and a result set whose rows are all as wide as the header comes
out cell by cell below the names of the columns, with NULL spelled out. Anything else is an error without a table: the
first row that does not fit, counted as the worksheet would count it, or the failure of the source.

Main statement: `readTable_gives`, for every source, whatever it answers and whatever was done before.
-/
import SheetPost.Command.ExportTable
import SheetPost.Proofs.Sheet.Limits

namespace SheetPost.Relation

open SheetPost.Sheet

namespace Rows

/-! ## Result sets -/

/-- the cell of a result set at a place, if there is one; a cell without a text is NULL -/
def cell? (rows : Rows) (i j : Nat) : Option (Option String) := rows.rows[i]?.bind (·[j]?)

/-- every row is as wide as the header -/
def Rectangular (rows : Rows) : Prop := ∀ cells ∈ rows.rows, cells.length = rows.columns.length

/-- the first row that is not as wide as the header -/
structure FirstMisfit (rows : Rows) (i : Nat) (cells : List (Option String)) : Prop where
  place : rows.rows[i]? = some cells
  width : cells.length ≠ rows.columns.length
  before : ∀ j < i, ∀ fitting, rows.rows[j]? = some fitting → fitting.length = rows.columns.length

theorem head?_misfits_eq_some_iff {rows : Rows} {i : Nat} {cells : List (Option String)} :
    rows.misfits.head? = some (cells, i) ↔ rows.FirstMisfit i cells := by
  rw [misfits, List.head?_filter, List.find?_eq_findSome?_guard, findSome?_zipIdx_eq_some_iff]
  simp only [Option.guard_eq_some_iff, Option.guard_eq_none_iff, Prod.mk.injEq, bne_iff_ne, ne_eq, bne_eq_false_iff_eq]
  constructor
  · rintro ⟨_, _, hplace, ⟨⟨rfl, rfl⟩, hwidth⟩, hbefore⟩
    exact ⟨hplace, hwidth, hbefore⟩
  · intro h
    exact ⟨i, cells, h.place, ⟨⟨rfl, rfl⟩, h.width⟩, h.before⟩

theorem misfits_eq_nil_iff {rows : Rows} : rows.misfits = [] ↔ rows.Rectangular := by
  simp only [misfits, List.filter_eq_nil_iff, bne_iff_ne, ne_eq, not_not, Prod.forall, List.mk_mem_zipIdx_iff_getElem?]
  constructor
  · intro h cells hmem
    obtain ⟨i, hplace⟩ := List.getElem?_of_mem hmem
    exact h cells i hplace
  · intro h cells i hplace
    exact h cells (List.mem_of_getElem? hplace)

/-! ## Tables of result sets -/

theorem document_of_rectangular {rows : Rows} (h : rows.Rectangular) (relation : String) :
    rows.document relation = .ok ⟨rows.columns :: rows.rows.map (·.map (·.getD nullText))⟩ := by
  rw [document, misfits_eq_nil_iff.2 h]

theorem document_eq_error_iff {rows : Rows} {relation : String} {e : ExportError} :
    rows.document relation = .error e ↔
      ∃ i cells, rows.FirstMisfit i cells ∧ e = .width relation (i + 2) cells.length rows.columns.length := by
  simp only [document, ← head?_misfits_eq_some_iff]
  cases rows.misfits with
  | nil => simp
  | cons first more =>
    obtain ⟨cells, i⟩ := first
    rw [List.head?_cons, Except.error.injEq]
    constructor
    · rintro rfl
      exact ⟨i, cells, rfl, rfl⟩
    · rintro ⟨_, _, h, rfl⟩
      cases h
      rfl

theorem exists_document_iff {rows : Rows} {relation : String} :
    (∃ d, rows.document relation = .ok d) ↔ rows.Rectangular := by
  constructor
  · rintro ⟨d, hd⟩
    rw [← misfits_eq_nil_iff]
    unfold document at hd
    split at hd
    · assumption
    · cases hd
  · exact fun h => ⟨_, document_of_rectangular h relation⟩

end Rows

/-- a table shows a result set: the names of the columns on top, then every cell in its place, NULL spelled out -/
structure Shows (rows : Rows) (d : Document) : Prop where
  height : d.rows.length = rows.rows.length + 1
  header : d.rows[0]? = some rows.columns
  width : ∀ row ∈ d.rows, row.length = rows.columns.length
  cell : ∀ i j, d.cell? (i + 1) j = (rows.cell? i j).map fun text => text.getD "NULL"

theorem shows_of_document {rows : Rows} {relation : String} {d : Document} (h : rows.document relation = .ok d) :
    Shows rows d := by
  have hrect := Rows.exists_document_iff.1 ⟨d, h⟩
  rw [Rows.document_of_rectangular hrect relation, Except.ok.injEq] at h
  subst h
  refine ⟨by simp, rfl, ?_, fun i j => ?_⟩
  · intro row hrow
    rcases List.mem_cons.1 hrow with rfl | hrow
    · rfl
    · obtain ⟨cells, hcells, rfl⟩ := List.mem_map.1 hrow
      rw [List.length_map, hrect cells hcells]
  · simp only [Document.cell?, List.getElem?_cons_succ, List.getElem?_map, Rows.cell?]
    cases rows.rows[i]? with
    | none => rfl
    | some cells => exact List.getElem?_map

/-! ## The export -/

/-- **An export asks one query, and gives the whole of what is answered or nothing of it**: a table just if every row is
as wide as the header, and then one that shows the answer. Else it reports the first row that is not, or that the source
failed. -/
theorem readTable_gives (table : String) (w : World) (h : History) :
    ∃ result, Command.ExportTable.readTable table w h =
        (result, ⟨.query ("SELECT * FROM " ++ table), Act.succeeded result⟩ :: h) ∧
      match w.query h ("SELECT * FROM " ++ table) with
      | .error cause => result = .error (.source table cause)
      | .ok rows =>
        ((∃ d, result = .ok d) ↔ rows.Rectangular) ∧ (∀ d, result = .ok d → Shows rows d) ∧
          ∀ e, result = .error e ↔
            ∃ i cells, rows.FirstMisfit i cells ∧ e = .width table (i + 2) cells.length rows.columns.length := by
  have hsql : "SELECT * FROM " ++ table = selectAll table := rfl
  rw [hsql]
  refine ⟨document table (w.query h (selectAll table)), rfl, ?_⟩
  cases w.query h (selectAll table) with
  | error cause => rfl
  | ok rows => exact ⟨Rows.exists_document_iff, fun _ => shows_of_document, fun _ => Rows.document_eq_error_iff⟩

end SheetPost.Relation
