/-
The worksheet of a table of text and the cells that are read from it.

Main statements: the cells of a worksheet lead to the texts of the table, row by row (`exists_of_ofDocument`), and they
are read back as they were written (`readRefs?_document`).
-/
import Mathlib.Data.List.Forall2
import SheetPost.Proofs.Sheet.CellName
import SheetPost.Proofs.Sheet.SharedStrings

namespace SheetPost.Sheet

open SheetPost.Text

namespace Worksheet

/-! ## Cells that refer to texts -/

/-- the references of rows: position and number of the text -/
def refs (rows : List Row) : List ((Nat × Nat) × Nat) :=
  rows.flatMap fun r => r.cells.map fun c => ((r.index, c.1), c.2)

/-- a reference leads to the text of a cell -/
def Leads (t : SharedStrings) (ref : (Nat × Nat) × Nat) (cell : (Nat × Nat) × List Char) : Prop :=
  ref.1 = cell.1 ∧ ∃ s, t.texts[ref.2]? = some s ∧ s.toList = cell.2

theorem Leads.grow {t t' : SharedStrings} {used : List String} (h : SharedStrings.Grows t t' used)
    {ref : (Nat × Nat) × Nat} {cell : (Nat × Nat) × List Char} (hl : Leads t ref cell) : Leads t' ref cell := by
  obtain ⟨hp, s, hs, hc⟩ := hl
  exact ⟨hp, s, h.getElem? hs, hc⟩

/-- the cells of a row that hold something -/
def filledRow (row : List (String × Nat)) (r : Nat) : List ((Nat × Nat) × List Char) :=
  (row.filter fun cell => !cell.1.isEmpty).map fun (s, c) => ((r, c), s.toList)

/-- the texts of cells -/
def textsOf (cells : List ((Nat × Nat) × List Char)) : List String := cells.map fun cell => String.ofList cell.2

/-- what one more cell does: nothing if it is empty, and else it has the number of its text -/
theorem addCell_cases {width r : Nat} {cell : String × Nat} {acc acc' : List (Nat × Nat) × SharedStrings}
    (h : addCell width r acc cell = .ok acc') :
    (cell.1.isEmpty = true ∧ acc' = acc) ∨
      (cell.1.isEmpty = false ∧ acc' = ((cell.2, (acc.2.use cell.1).1) :: acc.1, (acc.2.use cell.1).2)) := by
  unfold addCell at h
  split at h
  · cases h
  · split at h
    · next he =>
      cases h
      exact .inl ⟨he, rfl⟩
    · next he =>
      cases h
      exact .inr ⟨by simpa using he, rfl⟩

/-- one cell after the other gets a reference if it holds something -/
theorem exists_of_foldlM_addCell {width r : Nat} {row : List (String × Nat)}
    {acc acc' : List (Nat × Nat) × SharedStrings} (h : row.foldlM (addCell width r) acc = .ok acc')
    (hs : acc.2.Sound) :
    SharedStrings.Grows acc.2 acc'.2 (textsOf (filledRow row r)) ∧ ∃ cells : List (Nat × Nat), acc'.1 = cells.reverse ++ acc.1 ∧
      List.Forall₂ (Leads acc'.2) (cells.map fun c => ((r, c.1), c.2)) (filledRow row r) := by
  induction row generalizing acc with
  | nil =>
    cases h
    exact ⟨.refl hs _, [], rfl, .nil⟩
  | cons cell row ih =>
    rw [List.foldlM_cons] at h
    cases hcell : addCell width r acc cell with
    | error e =>
      rw [hcell] at h
      cases h
    | ok acc1 =>
      rw [hcell] at h
      rcases addCell_cases hcell with ⟨he, rfl⟩ | ⟨he, rfl⟩
      · obtain ⟨hgrows, cells, hcells, hleads⟩ := ih h hs
        have hrow : filledRow (cell :: row) r = filledRow row r := by simp [filledRow, he]
        rw [hrow]
        exact ⟨hgrows, cells, hcells, hleads⟩
      · obtain ⟨huse, htext⟩ := hs.use cell.1
        obtain ⟨hgrows, cells, hcells, hleads⟩ := ih h huse.sound
        have hrow : filledRow (cell :: row) r = ((r, cell.2), cell.1.toList) :: filledRow row r := by simp [filledRow, he]
        have htexts : textsOf (((r, cell.2), cell.1.toList) :: filledRow row r) =
            [cell.1] ++ textsOf (filledRow row r) := by simp [textsOf]
        rw [hrow, htexts]
        refine ⟨huse.trans hgrows, (cell.2, (acc.2.use cell.1).1) :: cells, by simp [hcells], ?_⟩
        have hfirst : Leads acc'.2 ((r, cell.2), (acc.2.use cell.1).1) ((r, cell.2), cell.1.toList) :=
          ⟨rfl, cell.1, hgrows.getElem? htext, rfl⟩
        exact .cons hfirst hleads

/-- the cells of several rows that hold something -/
def filledRows (rows : List (List String × Nat)) : List ((Nat × Nat) × List Char) :=
  rows.flatMap fun row => filledRow row.1.zipIdx row.2

/-- what one more row does: its cells get references, and it leaves no trace without any -/
theorem exists_of_addRow {height : Nat} {row : List String × Nat} {w w' : Worksheet} (h : addRow height w row = .ok w')
    (hs : w.strings.Sound) :
    SharedStrings.Grows w.strings w'.strings (textsOf (filledRow row.1.zipIdx row.2)) ∧ ∃ rows : List Row, w'.rows = rows.reverse ++ w.rows ∧
      List.Forall₂ (Leads w'.strings) (refs rows) (filledRow row.1.zipIdx row.2) := by
  unfold addRow at h
  split at h
  swap
  · cases h
  cases hrow : row.1.zipIdx.foldlM (addCell row.1.length row.2) ([], w.strings) with
  | error e =>
    rw [hrow] at h
    cases h
  | ok acc =>
    rw [hrow] at h
    obtain ⟨hgrows, cells, hcells, hleads⟩ := exists_of_foldlM_addCell hrow hs
    rw [List.append_nil] at hcells
    have hw : (if acc.1.isEmpty then (⟨w.rows, acc.2⟩ : Worksheet) else ⟨⟨row.2, acc.1.reverse⟩ :: w.rows, acc.2⟩) = w' :=
      Except.ok.inj h
    split at hw
    · next he =>
      subst hw
      have hnil : cells = [] := by simpa [hcells] using he
      rw [hnil] at hleads
      exact ⟨hgrows, [], rfl, hleads⟩
    · subst hw
      refine ⟨hgrows, [⟨row.2, acc.1.reverse⟩], rfl, ?_⟩
      simpa [refs, hcells] using hleads

/-- **The cells of a worksheet lead to the texts of the table, row by row** -/
theorem exists_of_foldlM_addRow {height : Nat} {rows : List (List String × Nat)} {w w' : Worksheet}
    (h : rows.foldlM (addRow height) w = .ok w') (hs : w.strings.Sound) :
    SharedStrings.Grows w.strings w'.strings (textsOf (filledRows rows)) ∧ ∃ new : List Row, w'.rows = new.reverse ++ w.rows ∧
      List.Forall₂ (Leads w'.strings) (refs new) (filledRows rows) := by
  induction rows generalizing w with
  | nil =>
    cases h
    exact ⟨.refl hs _, [], rfl, .nil⟩
  | cons row rows ih =>
    rw [List.foldlM_cons] at h
    cases hrow : addRow height w row with
    | error e =>
      rw [hrow] at h
      cases h
    | ok w1 =>
      rw [hrow] at h
      obtain ⟨hgrows1, new1, hrows1, hleads1⟩ := exists_of_addRow hrow hs
      obtain ⟨hgrows, new, hrows, hleads⟩ := ih h hgrows1.sound
      have hrefs : refs (new1 ++ new) = refs new1 ++ refs new := List.flatMap_append
      have hfilled : filledRows (row :: rows) = filledRow row.1.zipIdx row.2 ++ filledRows rows := List.flatMap_cons
      have htexts : textsOf (filledRow row.1.zipIdx row.2 ++ filledRows rows) =
          textsOf (filledRow row.1.zipIdx row.2) ++ textsOf (filledRows rows) := List.map_append
      rw [hfilled, htexts]
      refine ⟨hgrows1.trans hgrows, new1 ++ new, by simp [hrows, hrows1], ?_⟩
      rw [hrefs]
      exact List.rel_append (hleads1.imp fun _ _ hl => hl.grow hgrows) hleads

theorem exists_of_ofDocument {d : Document} {w : Worksheet} (h : ofDocument d = .ok w) :
    SharedStrings.Grows .empty w.strings (textsOf d.filled) ∧ List.Forall₂ (Leads w.strings) (refs w.rows) d.filled := by
  unfold ofDocument at h
  cases hrows : d.rows.zipIdx.foldlM (addRow d.rows.length) empty with
  | error e =>
    rw [hrows] at h
    cases h
  | ok w1 =>
    rw [hrows] at h
    cases h
    obtain ⟨hgrows, new, hnew, hleads⟩ := exists_of_foldlM_addRow hrows SharedStrings.sound_empty
    refine ⟨hgrows, ?_⟩
    have hw : w1.rows.reverse = new := by simp [hnew, empty]
    rw [hw]
    exact hleads

/-! ## Reading references -/

/-- a cell is read as its reference, whatever is open in front of it -/
theorem readRefs?_cellXml (cell : Option (Nat × Nat)) (inValue : Bool) (r : Nat) (c : Nat × Nat) (rest : List Token) :
    readRefs? cell inValue ((cellXml r c).tokens ++ rest) =
      (readRefs? none false rest).map (((r, c.1), c.2) :: ·) := by
  have hkind : List.lookup ['t'] [(['r'], CellName.cell r c.1), (['t'], ['s'])] = some ['s'] := rfl
  simp only [cellXml, Xml.tokens, Xml.allTokens, Xml.plainAttributes, List.map_cons, List.map_nil, List.append_nil,
    List.cons_append, List.nil_append, String.toList_ofList]
  simp [readRefs?, CellName.readCell?_cell, readDigits?_decimal, hkind]
  cases readRefs? none false rest <;> rfl

theorem readRefs?_cells (r : Nat) (cells : List (Nat × Nat)) (rest : List Token) :
    readRefs? none false (Xml.allTokens (cells.map (cellXml r)) ++ rest) =
      (readRefs? none false rest).map (cells.map (fun c => ((r, c.1), c.2)) ++ ·) := by
  induction cells with
  | nil => simp [Xml.allTokens]
  | cons c cells ih =>
    rw [List.map_cons, Xml.allTokens, List.append_assoc, readRefs?_cellXml, ih, Option.map_map]
    rfl

/-- a row is read as the references of its cells -/
theorem readRefs?_rowXml (spans : String) (row : Row) (rest : List Token) :
    readRefs? none false ((rowXml spans row).tokens ++ rest) =
      (readRefs? none false rest).map (refs [row] ++ ·) := by
  have hcells := readRefs?_cells row.index row.cells (.closing "row".toList :: rest)
  rw [rowXml]
  cases hl : row.cells with
  | nil => simp [Xml.tokens, readRefs?, refs, hl]
  | cons c cells =>
    rw [hl] at hcells
    rw [List.map_cons, Token.tokens_element, ← List.map_cons, List.cons_append, List.append_assoc, readRefs?,
      if_neg (by decide), List.singleton_append]
    have hvalue : ("row".toList = "v".toList) = False := by decide
    simp only [hvalue, decide_false, hcells, readRefs?]
    simp [refs, hl]

theorem readRefs?_rows (spans : String) (rows : List Row) (rest : List Token) :
    readRefs? none false (Xml.allTokens (rows.map (rowXml spans)) ++ rest) =
      (readRefs? none false rest).map (refs rows ++ ·) := by
  induction rows with
  | nil => simp [Xml.allTokens, refs]
  | cons row rows ih =>
    rw [List.map_cons, Xml.allTokens, List.append_assoc, readRefs?_rowXml, ih, Option.map_map]
    have hrefs : refs (row :: rows) = refs [row] ++ refs rows := by simp [refs]
    rw [hrefs]
    simp [Function.comp_def]

/-- the blocks that rows are written in make no difference -/
theorem readRefs?_rowsXml (rows : List Row) (rest : List Token) :
    readRefs? none false (Xml.allTokens (rowsXml rows) ++ rest) =
      (readRefs? none false rest).map (refs rows ++ ·) := by
  fun_induction rowsXml rows with
  | case1 => simp [Xml.allTokens, refs]
  | case2 r more cut block ih =>
    have hrows : block ++ cut.2 = r :: more := by
      rw [List.cons_append]
      exact congrArg _ List.takeWhile_append_dropWhile
    have hrefs : refs (r :: more) = refs block ++ refs cut.2 := by
      rw [← hrows]
      exact List.flatMap_append
    rw [Xml.allTokens_append, List.append_assoc, readRefs?_rows, ih, Option.map_map, hrefs]
    simp [Function.comp_def]

theorem readRefs?_sheetData (rows : List Row) (rest : List Token) :
    readRefs? none false ((Xml.group "sheetData" (rowsXml rows)).tokens ++ rest) =
      (readRefs? none false rest).map (refs rows ++ ·) := by
  have hrows := readRefs?_rowsXml rows
  rw [Xml.group]
  cases hl : rowsXml rows with
  | nil =>
    have hrefs : refs rows = [] := by simpa [hl, Xml.allTokens, readRefs?] using (hrows []).symm
    simp [Xml.tokens, readRefs?, hrefs]
  | cons x xs =>
    rw [hl] at hrows
    rw [Token.tokens_element, List.cons_append, List.append_assoc, readRefs?, if_neg (by decide)]
    have hvalue : ("sheetData".toList = "v".toList) = False := by decide
    simp only [hvalue, decide_false, List.singleton_append, hrows, readRefs?]

/-- the references of a worksheet are read back row by row -/
theorem readRefs?_tokens (w : Worksheet) : readRefs? none false w.xml.tokens = some (refs w.rows) := by
  have hdata := readRefs?_sheetData w.rows
  rw [xml]
  generalize Xml.group "sheetData" (rowsXml w.rows) = data at hdata ⊢
  simp only [Xml.tokens, Xml.allTokens, Xml.leaf, Xml.group, List.append_assoc, List.cons_append, List.nil_append]
  simp [readRefs?, hdata]

/-! ## Well-made tags -/

theorem isValueChar_decimal (n : Nat) : ∀ c ∈ decimal n, Token.isValueChar c = true := fun c hc =>
  SharedStrings.isValueChar_of_isDigit ((isDigit_of_readDigits? (readDigits?_decimal n)).2 c hc)

theorem isValueChar_cell (r c : Nat) : ∀ x ∈ CellName.cell r c, Token.isValueChar x = true := by
  rw [CellName.cell, List.forall_mem_append]
  refine ⟨fun x hx => ?_, isValueChar_decimal (r + 1)⟩
  obtain ⟨m, hm, rfl⟩ := CellName.mem_column hx
  have hall : ∀ m : Fin 26, Token.isValueChar (Char.ofNat (0x41 + m.val)) = true := by decide
  exact hall ⟨m, hm⟩

theorem isValueChar_dimension (w : Worksheet) : ∀ x ∈ w.dimension, Token.isValueChar x = true := by
  unfold dimension
  split
  · unfold CellName.range
    split
    · exact isValueChar_cell _ _
    · rw [List.forall_mem_append, List.forall_mem_cons]
      exact ⟨isValueChar_cell _ _, by decide, isValueChar_cell _ _⟩
  · exact isValueChar_cell _ _

theorem isValueChar_spans (rows : List Row) : ∀ x ∈ (spans rows).toList, Token.isValueChar x = true := by
  unfold spans
  split
  · rw [String.toList_ofList, List.forall_mem_append, List.forall_mem_cons]
    exact ⟨isValueChar_decimal _, by decide, isValueChar_decimal _⟩
  · exact List.forall_mem_nil _

theorem tidy_cellXml (r : Nat) (c : Nat × Nat) : Token.Tidy (cellXml r c) := by
  have hname : (CellName.cell r c.1).all Token.isValueChar = true := List.all_eq_true.2 (isValueChar_cell r c.1)
  have htag : Token.isTidyTag "c" [("r", String.ofList (CellName.cell r c.1)), ("t", "s")] = true := by
    simp only [Token.isTidyTag, List.all_cons, String.toList_ofList, hname]
    decide
  refine .element htag ?_
  rw [List.forall_mem_singleton]
  have hdigits := isDigit_of_readDigits? (readDigits?_decimal c.2)
  refine .word (by decide) hdigits.1 fun x hx => ?_
  have := isValueChar_decimal c.2 x hx
  simp only [Token.isValueChar, Bool.and_eq_true] at this
  exact this.1

theorem tidy_rowXml {rows : List Row} (row : Row) : Token.Tidy (rowXml (spans rows) row) := by
  have hrow : (CellName.row row.index).all Token.isValueChar = true := List.all_eq_true.2 (isValueChar_decimal _)
  have hspans : (spans rows).toList.all Token.isValueChar = true := List.all_eq_true.2 (isValueChar_spans rows)
  have htag : Token.isTidyTag "row" [("r", String.ofList (CellName.row row.index)), ("spans", spans rows)] = true := by
    simp only [Token.isTidyTag, List.all_cons, String.toList_ofList, hrow, hspans]
    decide
  refine .element htag fun x hx => ?_
  obtain ⟨c, -, rfl⟩ := List.mem_map.1 hx
  exact tidy_cellXml _ c

theorem tidy_rowsXml (rows : List Row) : ∀ x ∈ rowsXml rows, Token.Tidy x := by
  fun_induction rowsXml rows with
  | case1 => exact List.forall_mem_nil _
  | case2 r more cut block ih =>
    rw [List.forall_mem_append]
    refine ⟨fun x hx => ?_, ih⟩
    obtain ⟨row, -, rfl⟩ := List.mem_map.1 hx
    exact tidy_rowXml row

theorem tidy_xml (w : Worksheet) : Token.Tidy w.xml := by
  have hdimension : w.dimension.all Token.isValueChar = true := List.all_eq_true.2 (isValueChar_dimension w)
  have htag : Token.isTidyTag "dimension" [("ref", String.ofList w.dimension)] = true := by
    simp only [Token.isTidyTag, List.all_cons, String.toList_ofList, hdimension]
    decide
  have hleaf {name : String} {attributes : List (String × String)} (h : Token.isTidyTag name attributes = true) :
      Token.Tidy (Xml.leaf name attributes) := .element h (List.forall_mem_nil _)
  refine .element (by decide) ?_
  simp only [List.forall_mem_cons]
  refine ⟨hleaf htag, ?_, hleaf (by decide), ?_, hleaf (by decide), List.forall_mem_nil _⟩
  · refine .element (by decide) ?_
    rw [List.forall_mem_singleton]
    exact hleaf (by decide)
  · exact .element (by decide) (tidy_rowsXml w.rows)

/-- **The references of a worksheet are read back from its document** -/
theorem readRefs?_document (w : Worksheet) :
    (Token.readDocument? (Xml.document w.xml)).bind (readRefs? none false) = some (refs w.rows) := by
  rw [w.tidy_xml.readDocument?_document, Option.bind_some, readRefs?_tokens]

end Worksheet

end SheetPost.Sheet
