/-
The limits of a worksheet. A cell is at fault by itself, whatever was written before it: its column cannot be counted,
or it holds something and lies outside the worksheet or is too long. An empty cell is only held to the first of these.

Main statement: a table becomes a workbook just if it is within the limits, and else the first fault is reported, row by
row and within a row from the left (`workbook_limits`).
-/
import Mathlib.Data.List.Basic
import SheetPost.Sheet.Workbook

namespace SheetPost.Sheet

/-! ## The first of several -/

section First

variable {α β ε : Type}

/-- what is found first in a list is found at a place before which nothing is found -/
theorem findSome?_zipIdx_eq_some_iff {f : α × Nat → Option β} {l : List α} {b : β} :
    l.zipIdx.findSome? f = some b ↔
      ∃ i a, l[i]? = some a ∧ f (a, i) = some b ∧ ∀ j < i, ∀ x, l[j]? = some x → f (x, j) = none := by
  rw [List.findSome?_eq_some_iff]
  constructor
  · rintro ⟨front, ⟨a, i⟩, back, hl, ha, hfront⟩
    have hplace : l.zipIdx[front.length]? = some (a, i) := by simp [hl]
    obtain ⟨x, hx, hpair⟩ := Option.map_eq_some_iff.1 (List.getElem?_zipIdx ▸ hplace)
    obtain ⟨rfl, hi⟩ := Prod.mk.inj hpair
    obtain rfl : front.length = i := by omega
    refine ⟨front.length, x, hx, ha, fun j hj y hy => hfront (y, j) ?_⟩
    have hyplace : l.zipIdx[j]? = some (y, j) := by simp [List.getElem?_zipIdx, hy]
    rw [hl, List.getElem?_append_left hj] at hyplace
    exact List.mem_of_getElem? hyplace
  · rintro ⟨i, a, ha, hfound, hbefore⟩
    have hplace : l.zipIdx[i]? = some (a, i) := by simp [List.getElem?_zipIdx, ha]
    obtain ⟨hi, hget⟩ := List.getElem?_eq_some_iff.1 hplace
    refine ⟨l.zipIdx.take i, (a, i), l.zipIdx.drop (i + 1), ?_, hfound, ?_⟩
    · rw [← hget, List.getElem_cons_drop, List.take_append_drop]
    · rintro ⟨x, j⟩ hx
      obtain ⟨k, hk, hxk⟩ := List.mem_take_iff_getElem.1 hx
      rw [List.getElem_zipIdx, Prod.mk.injEq] at hxk
      obtain ⟨hxk, rfl⟩ := hxk
      rw [Nat.zero_add]
      exact hbefore k (by omega) x (List.getElem?_eq_some_iff.2 ⟨_, hxk⟩)

/-- a fold stops at the first element that it cannot take, if that does not depend on what it has gathered -/
theorem foldlM_eq_error_iff {f : β → α → Except ε β} {g : α → Option ε} (h : ∀ b a e, f b a = .error e ↔ g a = some e)
    {l : List α} {b : β} {e : ε} : l.foldlM f b = .error e ↔ l.findSome? g = some e := by
  induction l generalizing b with
  | nil => exact ⟨nofun, nofun⟩
  | cons a l ih =>
    rw [List.foldlM_cons, List.findSome?_cons]
    cases hf : f b a with
    | error e' =>
      rw [(h b a e').1 hf]
      exact ⟨fun he => congrArg some (Except.error.inj he), fun he => congrArg Except.error (Option.some.inj he)⟩
    | ok b' =>
      have hg : g a = none := by
        refine Option.eq_none_iff_forall_ne_some.2 fun e' he' => ?_
        rw [(h b a e').2 he'] at hf
        cases hf
      rw [hg]
      exact ih

/-- an error is the same one whatever would have come of success -/
theorem error_eq_error_iff {e e' : ε} : (.error e : Except ε α) = .error e' ↔ (.error e : Except ε β) = .error e' := by
  rw [Except.error.injEq, Except.error.injEq]

end First

/-! ## Cells and rows -/

/-- what is wrong with a cell, by the width of its row and its place -/
inductive CellFault (width r c : Nat) (s : String) : SheetError → Prop where
  /-- it does not matter whether the cell holds something -/
  | uncounted : 65536 ≤ c → CellFault width r c s (.tooManyColumns width)
  | outside : c < 65536 → s ≠ "" → 1048576 ≤ r ∨ 16384 ≤ c → CellFault width r c s .outside
  | tooLong : s ≠ "" → r < 1048576 → c < 16384 → 32767 < s.length → CellFault width r c s .tooLong

namespace Worksheet

theorem fault?_eq_some_iff {width r c : Nat} {s : String} {e : SheetError} :
    fault? width r c s = some e ↔ CellFault width r c s e := by
  have hempty : s.isEmpty = true ↔ s = "" := String.isEmpty_iff
  unfold fault? maxCounted maxRows maxColumns maxCharacters
  constructor
  · intro h
    split at h
    · next hc =>
      cases h
      exact .uncounted hc
    · next hc =>
      split at h
      · cases h
      · next hs =>
        have hs : s ≠ "" := fun he => hs (hempty.2 he)
        split at h
        · next hplace =>
          cases h
          exact .outside (by omega) hs (by simpa using hplace)
        · next hplace =>
          split at h
          · next hlong =>
            cases h
            simp only [Bool.or_eq_true, decide_eq_true_eq, not_or, Nat.not_le] at hplace
            exact .tooLong hs hplace.1 hplace.2 hlong
          · cases h
  · intro h
    cases h with
    | uncounted hc => rw [if_pos hc]
    | outside hc hs hplace => rw [if_neg (by omega), if_neg (by simpa [hempty] using hs), if_pos (by simpa using hplace)]
    | tooLong hs hr hc hlong =>
      rw [if_neg (by omega), if_neg (by simpa [hempty] using hs), if_neg (by simp; omega), if_pos hlong]

theorem addCell_eq_error_iff {width r : Nat} {acc : List (Nat × Nat) × SharedStrings} {cell : String × Nat}
    {e : SheetError} : addCell width r acc cell = .error e ↔ fault? width r cell.2 cell.1 = some e := by
  unfold addCell
  split
  · next e' he' => rw [he', Except.error.injEq, Option.some.injEq]
  · next he' =>
    rw [he']
    split <;> simp

/-- what is wrong with a row of a table that is so high -/
def rowFault? (height : Nat) (row : List String × Nat) : Option SheetError :=
  if row.2 < maxCountedRows then row.1.zipIdx.findSome? fun cell => fault? row.1.length row.2 cell.2 cell.1
  else some (.tooManyRows height)

theorem addRow_eq_error_iff {height : Nat} {w : Worksheet} {row : List String × Nat} {e : SheetError} :
    addRow height w row = .error e ↔ rowFault? height row = some e := by
  have hcells : row.1.zipIdx.foldlM (addCell row.1.length row.2) ([], w.strings) = .error e ↔
      row.1.zipIdx.findSome? (fun cell => fault? row.1.length row.2 cell.2 cell.1) = some e := by
    apply foldlM_eq_error_iff
    exact fun _ _ _ => addCell_eq_error_iff
  unfold addRow rowFault?
  split
  · rw [← hcells]
    cases row.1.zipIdx.foldlM (addCell row.1.length row.2) ([], w.strings) with
    | error e' => exact error_eq_error_iff
    | ok acc => exact ⟨nofun, nofun⟩
  · rw [Except.error.injEq, Option.some.injEq]

theorem ofDocument_eq_error_iff {d : Document} {e : SheetError} :
    ofDocument d = .error e ↔ d.rows.zipIdx.findSome? (rowFault? d.rows.length) = some e := by
  have hrows : d.rows.zipIdx.foldlM (addRow d.rows.length) empty = .error e ↔
      d.rows.zipIdx.findSome? (rowFault? d.rows.length) = some e := by
    apply foldlM_eq_error_iff
    exact fun _ _ _ => addRow_eq_error_iff
  rw [ofDocument, ← hrows]
  cases d.rows.zipIdx.foldlM (addRow d.rows.length) empty with
  | error e' => rfl
  | ok w => exact ⟨nofun, nofun⟩

/-- in a row that can be counted, the first cell at fault counts -/
theorem rowFault?_eq_some_iff {height r : Nat} (hr : r < maxCountedRows) {row : List String} {e : SheetError} :
    rowFault? height (row, r) = some e ↔ ∃ c s, row[c]? = some s ∧ CellFault row.length r c s e ∧
      ∀ c' < c, ∀ s', row[c']? = some s' → ∀ e', ¬ CellFault row.length r c' s' e' := by
  rw [rowFault?, if_pos hr, findSome?_zipIdx_eq_some_iff]
  simp only [fault?_eq_some_iff, Option.eq_none_iff_forall_ne_some, ne_eq]

theorem rowFault?_eq_none_iff {height r : Nat} {row : List String} :
    rowFault? height (row, r) = none ↔
      r < maxCountedRows ∧ ∀ c s, row[c]? = some s → ∀ e, ¬ CellFault row.length r c s e := by
  unfold rowFault?
  split
  · next hr =>
    have hcell (c : Nat) (s : String) :
        fault? row.length r c s = none ↔ ∀ e, ¬ CellFault row.length r c s e := by
      simp only [Option.eq_none_iff_forall_ne_some, ne_eq, fault?_eq_some_iff]
    simp only [List.findSome?_eq_none_iff, Prod.forall, List.mk_mem_zipIdx_iff_getElem?, hcell]
    exact ⟨fun h => ⟨hr, fun c s => h s c⟩, fun h s c => h.2 c s⟩
  · next hr => exact ⟨nofun, fun h => absurd h.1 hr⟩

end Worksheet

namespace Document

/-! ## Tables -/

/-- what is wrong with the cell at a place of the table -/
def FaultAt (d : Document) (r c : Nat) (e : SheetError) : Prop :=
  ∃ row s, d.rows[r]? = some row ∧ row[c]? = some s ∧ CellFault row.length r c s e

/-- the first cell at fault, row by row and within a row from the left -/
structure FirstFault (d : Document) (r c : Nat) (e : SheetError) : Prop where
  fault : d.FaultAt r c e
  first : ∀ r' c' e', d.FaultAt r' c' e' → r < r' ∨ (r = r' ∧ c ≤ c')

/-- what is reported of a table: the first cell at fault, or that its rows cannot be counted -/
inductive Reports (d : Document) : SheetError → Prop where
  | cell {r c : Nat} {e : SheetError} : r < 4294967296 → d.FirstFault r c e → Reports d e
  | rows : 4294967296 < d.rows.length → (∀ r c e, d.FaultAt r c e → 4294967296 ≤ r) →
    Reports d (.tooManyRows d.rows.length)

/-- the table is within the limits of a worksheet -/
structure Fits (d : Document) : Prop where
  height : d.rows.length ≤ 4294967296
  width : ∀ row ∈ d.rows, row.length ≤ 65536
  inside : ∀ r c s, d.cell? r c = some s → s ≠ "" → r < 1048576 ∧ c < 16384 ∧ s.length ≤ 32767

theorem workbook_eq_error_iff {d : Document} {e : SheetError} :
    d.workbook = .error e ↔ Worksheet.ofDocument d = .error e := by
  rw [workbook, parts]
  cases Worksheet.ofDocument d with
  | error e' => exact error_eq_error_iff
  | ok w => exact ⟨nofun, nofun⟩

/-- the cells at fault in one row -/
theorem faultAt_iff_of_row {d : Document} {r : Nat} {row : List String} (hrow : d.rows[r]? = some row) {c : Nat}
    {e : SheetError} : d.FaultAt r c e ↔ ∃ s, row[c]? = some s ∧ CellFault row.length r c s e := by
  constructor
  · rintro ⟨row', s, hrow', hs, hfault⟩
    rw [hrow, Option.some.injEq] at hrow'
    subst hrow'
    exact ⟨s, hs, hfault⟩
  · rintro ⟨s, hs, hfault⟩
    exact ⟨row, s, hrow, hs, hfault⟩

/-- **What is reported is the first fault** -/
theorem workbook_eq_error_iff_reports {d : Document} {e : SheetError} : d.workbook = .error e ↔ d.Reports e := by
  have hmax : maxCountedRows = 4294967296 := rfl
  rw [workbook_eq_error_iff, Worksheet.ofDocument_eq_error_iff, findSome?_zipIdx_eq_some_iff]
  constructor
  · rintro ⟨r, row, hrow, hfound, hbefore⟩
    -- the rows before have no fault and can be counted
    have hclean : ∀ r' c' e', r' < r → ¬ d.FaultAt r' c' e' := by
      rintro r' c' e' hr' ⟨row', s', hrow', hs', hfault⟩
      exact (Worksheet.rowFault?_eq_none_iff.1 (hbefore r' hr' row' hrow')).2 c' s' hs' e' hfault
    by_cases hr : r < maxCountedRows
    · obtain ⟨c, s, hs, hfault, hleft⟩ := (Worksheet.rowFault?_eq_some_iff hr).1 hfound
      refine .cell (hmax ▸ hr) ⟨⟨row, s, hrow, hs, hfault⟩, fun r' c' e' hfault' => ?_⟩
      by_contra hnot
      rcases Nat.lt_trichotomy r' r with hlt | rfl | hgt
      · exact hclean r' c' e' hlt hfault'
      · obtain ⟨s', hs', hfault'⟩ := (faultAt_iff_of_row hrow).1 hfault'
        exact hleft c' (by omega) s' hs' e' hfault'
      · exact hnot (.inl hgt)
    · rw [Worksheet.rowFault?, if_neg hr, Option.some.injEq] at hfound
      subst hfound
      have hlt := (List.getElem?_eq_some_iff.1 hrow).1
      refine .rows (by omega) fun r' c' e' hfault => ?_
      by_contra hlow
      exact hclean r' c' e' (by omega) hfault
  · intro h
    cases h with
    | @cell r c e hr hfirst =>
      obtain ⟨row, s, hrow, hs, hfault⟩ := hfirst.fault
      refine ⟨r, row, hrow, (Worksheet.rowFault?_eq_some_iff hr).2 ⟨c, s, hs, hfault, ?_⟩, ?_⟩
      · intro c' hc' s' hs' e' hfault'
        rcases hfirst.first r c' e' ⟨row, s', hrow, hs', hfault'⟩ with hlt | ⟨-, hle⟩
        · exact Nat.lt_irrefl r hlt
        · omega
      · intro r' hr' row' hrow'
        refine Worksheet.rowFault?_eq_none_iff.2 ⟨by omega, fun c' s' hs' e' hfault' => ?_⟩
        rcases hfirst.first r' c' e' ⟨row', s', hrow', hs', hfault'⟩ with hlt | ⟨heq, -⟩ <;> omega
    | rows hheight hclean =>
      obtain ⟨row, hrow⟩ : ∃ row, d.rows[maxCountedRows]? = some row :=
        ⟨_, List.getElem?_eq_getElem (hmax ▸ hheight)⟩
      refine ⟨maxCountedRows, row, hrow, ?_, fun r' hr' row' hrow' => ?_⟩
      · rw [Worksheet.rowFault?, if_neg (Nat.lt_irrefl _)]
      · refine Worksheet.rowFault?_eq_none_iff.2 ⟨hr', fun c' s' hs' e' hfault' => ?_⟩
        have := hclean r' c' e' ⟨row', s', hrow', hs', hfault'⟩
        omega

/-- there is a workbook just if the rows can be counted and no cell is at fault -/
theorem exists_workbook_iff {d : Document} :
    (∃ file, d.workbook = .ok file) ↔ d.rows.length ≤ 4294967296 ∧ ∀ r c e, ¬ d.FaultAt r c e := by
  have hmax : maxCountedRows = 4294967296 := rfl
  have hok : (∃ file, d.workbook = .ok file) ↔ d.rows.zipIdx.findSome? (Worksheet.rowFault? d.rows.length) = none := by
    rw [Option.eq_none_iff_forall_ne_some]
    simp only [ne_eq, ← Worksheet.ofDocument_eq_error_iff, ← workbook_eq_error_iff]
    cases d.workbook with
    | error e => simp
    | ok file => simp
  rw [hok, List.findSome?_eq_none_iff]
  simp only [Prod.forall, List.mk_mem_zipIdx_iff_getElem?, Worksheet.rowFault?_eq_none_iff]
  constructor
  · intro h
    refine ⟨?_, ?_⟩
    · by_contra hhigh
      have := (h _ maxCountedRows (List.getElem?_eq_getElem (by omega))).1
      exact Nat.lt_irrefl _ this
    · rintro r c e ⟨row, s, hrow, hs, hfault⟩
      exact (h row r hrow).2 c s hs e hfault
  · rintro ⟨hheight, hclean⟩ row r hrow
    have := (List.getElem?_eq_some_iff.1 hrow).1
    exact ⟨by omega, fun c s hs e hfault => hclean r c e ⟨row, s, hrow, hs, hfault⟩⟩

/-- no cell of a table within the limits is at fault, and a table without such a cell is within the limits -/
theorem fits_iff {d : Document} : d.Fits ↔ d.rows.length ≤ 4294967296 ∧ ∀ r c e, ¬ d.FaultAt r c e := by
  constructor
  · intro hfits
    refine ⟨hfits.height, ?_⟩
    rintro r c e ⟨row, s, hrow, hs, hfault⟩
    have hcell : d.cell? r c = some s := by rw [cell?, hrow, Option.bind_some, hs]
    cases hfault with
    | uncounted hc =>
      have := hfits.width row (List.mem_of_getElem? hrow)
      have := (List.getElem?_eq_some_iff.1 hs).1
      omega
    | outside _ hne hplace =>
      have := hfits.inside r c s hcell hne
      omega
    | tooLong hne _ _ hlong =>
      have := hfits.inside r c s hcell hne
      omega
  · rintro ⟨hheight, hclean⟩
    refine ⟨hheight, fun row hmem => ?_, fun r c s hcell hne => ?_⟩
    · obtain ⟨r, hrow⟩ := List.getElem?_of_mem hmem
      by_contra hwide
      have hs : row[65536]? = some row[65536] := List.getElem?_eq_getElem (by omega)
      exact hclean r 65536 _ ⟨row, _, hrow, hs, .uncounted (Nat.le_refl _)⟩
    · obtain ⟨row, hrow, hs⟩ := Option.bind_eq_some_iff.1 hcell
      have hfault {e : SheetError} (h : CellFault row.length r c s e) : False := hclean r c e ⟨row, s, hrow, hs, h⟩
      have hcounted : c < 65536 := by
        by_contra hc
        exact hfault (.uncounted (by omega))
      have hplace : r < 1048576 ∧ c < 16384 := by
        by_contra hout
        exact hfault (.outside hcounted hne (by omega))
      refine ⟨hplace.1, hplace.2, ?_⟩
      by_contra hlong
      exact hfault (.tooLong hne hplace.1 hplace.2 (by omega))

/-- **A table becomes a workbook just if it is within the limits of a worksheet, and else the first fault is reported**:
the first cell at fault, row by row, or the number of rows if that is the first that cannot be counted. -/
theorem workbook_limits (d : Document) :
    ((∃ file, d.workbook = .ok file) ↔ d.Fits) ∧ ∀ e, d.workbook = .error e ↔ d.Reports e :=
  ⟨exists_workbook_iff.trans fits_iff.symm, fun _ => workbook_eq_error_iff_reports⟩

end Document

end SheetPost.Sheet
