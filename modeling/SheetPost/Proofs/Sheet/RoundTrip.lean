/-
A workbook read back: the cells that a reader sees are those of the table, unless a text of the table is the markup of
formatted runs or holds a character that XML has no place for.

Main statement: `exists_shownBy_iff`.
-/
import Mathlib.Data.List.Nodup
import Mathlib.Data.List.Sigma
import SheetPost.Proofs.Sheet.Runs
import SheetPost.Proofs.Sheet.Worksheet

namespace SheetPost.Sheet

open SheetPost.Text

namespace Document

/-! ## Cells and their positions -/

/-- the cells that hold something, by their positions -/
theorem mem_filled {d : Document} {r c : Nat} {t : List Char} :
    ((r, c), t) ∈ d.filled ↔ t ≠ [] ∧ ∃ s, d.cell? r c = some s ∧ s.toList = t := by
  simp only [filled, List.mem_flatMap, List.mem_map, List.mem_filter, Prod.exists, Prod.mk.injEq,
    List.mk_mem_zipIdx_iff_getElem?, cell?, Option.bind_eq_some_iff]
  constructor
  · rintro ⟨row, r', hrow, s, c', ⟨hs, hne⟩, ⟨rfl, rfl⟩, rfl⟩
    refine ⟨?_, s, ⟨row, hrow, hs⟩, rfl⟩
    simpa using hne
  · rintro ⟨hne, s, ⟨row, hrow, hs⟩, rfl⟩
    refine ⟨row, r, hrow, s, c, ⟨hs, ?_⟩, ⟨rfl, rfl⟩, rfl⟩
    simpa using hne

theorem nodup_map_filled (d : Document) : (d.filled.map Prod.fst).Nodup := by
  have hpositions : d.filled.map Prod.fst = d.rows.zipIdx.flatMap fun row =>
      (row.1.zipIdx.filter fun cell => !cell.1.isEmpty).map fun cell => (row.2, cell.2) := by
    simp [filled, List.map_flatMap, Function.comp_def]
  rw [hpositions, List.nodup_flatMap]
  constructor
  · rintro ⟨row, r⟩ -
    have hcolumns := (List.nodup_zipIdx_map_snd row).sublist
      (List.filter_sublist (p := fun cell => !cell.1.isEmpty).map Prod.snd)
    have := hcolumns.map (f := fun c => (r, c)) fun c c' h => (Prod.mk.inj h).2
    rwa [List.map_map] at this
  · have hrows := List.nodup_zipIdx_map_snd d.rows
    rw [List.Nodup, List.pairwise_map] at hrows
    refine hrows.imp fun {x y} hne => ?_
    intro p hx hy
    obtain ⟨_, -, rfl⟩ := List.mem_map.1 hx
    obtain ⟨_, -, h⟩ := List.mem_map.1 hy
    exact hne (Prod.mk.inj h).1.symm

/-- the text of a cell that holds something is one of the texts of the table -/
theorem mem_textsOf_filled {d : Document} {s : String} :
    s ∈ Worksheet.textsOf d.filled ↔ s ≠ "" ∧ ∃ row ∈ d.rows, s ∈ row := by
  simp only [Worksheet.textsOf, List.mem_map, Prod.exists, mem_filled, cell?, Option.bind_eq_some_iff]
  constructor
  · rintro ⟨r, c, t, ⟨hne, s', ⟨row, hrow, hs⟩, rfl⟩, rfl⟩
    rw [String.ofList_toList]
    exact ⟨by simpa using hne, row, List.mem_of_getElem? hrow, List.mem_of_getElem? hs⟩
  · rintro ⟨hne, row, hrow, hs⟩
    obtain ⟨r, hrow⟩ := List.getElem?_of_mem hrow
    obtain ⟨c, hs⟩ := List.getElem?_of_mem hs
    exact ⟨r, c, s.toList, ⟨by simpa using hne, s, ⟨row, hrow, hs⟩, rfl⟩, String.ofList_toList⟩

/-! ## What is seen of a table -/

/-- the text at a position; a cell that is not named is empty -/
def textAt (cells : List ((Nat × Nat) × List Char)) (r c : Nat) : List Char := (cells.lookup (r, c)).getD []

theorem lookup_eq_some_iff_mem {cells : List ((Nat × Nat) × List Char)} (h : (cells.map Prod.fst).Nodup)
    {p : Nat × Nat} {t : List Char} : cells.lookup p = some t ↔ (p, t) ∈ cells := by
  rw [List.lookup_eq_some_iff]
  constructor
  · rintro ⟨front, back, rfl, -⟩
    simp
  · intro hmem
    obtain ⟨front, back, rfl⟩ := List.append_of_mem hmem
    refine ⟨front, back, rfl, fun cell hcell => ?_⟩
    rw [List.map_append, List.nodup_append] at h
    have := h.2.2 cell.1 (List.mem_map_of_mem hcell) p List.mem_cons_self
    simpa using this.symm

/-- the cells are those of a table: none comes twice, none stands where the table has no cell, and at every position
stands the text that the table has there -/
structure ShownBy (d : Document) (cells : List ((Nat × Nat) × List Char)) : Prop where
  once : (cells.map Prod.fst).Nodup
  inside : ∀ cell ∈ cells, (d.cell? cell.1.1 cell.1.2).isSome = true
  text : ∀ r c, textAt cells r c = ((d.cell? r c).getD "").toList

/-- the cells that hold something show the table -/
theorem shownBy_filled (d : Document) : d.ShownBy d.filled where
  once := d.nodup_map_filled
  inside := by
    rintro ⟨⟨r, c⟩, t⟩ hmem
    obtain ⟨-, s, hs, -⟩ := mem_filled.1 hmem
    exact Option.isSome_iff_exists.2 ⟨s, hs⟩
  text r c := by
    have hlookup {t : List Char} : d.filled.lookup (r, c) = some t ↔ ((r, c), t) ∈ d.filled :=
      lookup_eq_some_iff_mem d.nodup_map_filled
    unfold textAt
    cases hl : d.filled.lookup (r, c) with
    | some t =>
      obtain ⟨-, s, hs, rfl⟩ := mem_filled.1 (hlookup.1 hl)
      rw [hs]
      rfl
    | none =>
      cases hs : d.cell? r c with
      | none => rfl
      | some s =>
        -- a cell that is not named can only be empty
        by_contra hne
        have := hlookup.2 (mem_filled.2 ⟨fun h => hne h.symm, s, hs, rfl⟩)
        rw [hl] at this
        cases this

end Document

namespace Workbook

/-! ## Reading cells -/

/-- the two parts that a reader of cells opens -/
theorem cells?_parts (w : Worksheet) : cells? (parts w) = readCells? (Xml.document w.xml)
    (if w.strings.texts.isEmpty then none else some (Xml.document w.strings.xml)) := by
  cases h : w.strings.texts.isEmpty
  all_goals simp [cells?, parts, h, sheetPart, stringsPart]

/-- cells are read if every reference leads to a text -/
theorem mapM_eq_some_iff {texts : List (List Char)} {refs : List ((Nat × Nat) × Nat)}
    {cells : List ((Nat × Nat) × List Char)} :
    (refs.mapM fun ref => (texts[ref.2]?).map fun t => (ref.1, t)) = some cells ↔
      List.Forall₂ (fun ref cell => ref.1 = cell.1 ∧ texts[ref.2]? = some cell.2) refs cells := by
  induction refs generalizing cells with
  | nil => simp [eq_comm]
  | cons ref refs ih =>
    rw [List.mapM_cons, List.forall₂_cons_left_iff]
    simp only [Option.bind_eq_bind, Option.pure_def, Option.bind_eq_some_iff, Option.map_eq_some_iff, ih,
      Option.some.injEq]
    constructor
    · rintro ⟨cell, ⟨t, ht, rfl⟩, cells, hcells, rfl⟩
      exact ⟨(ref.1, t), cells, ⟨rfl, ht⟩, hcells, rfl⟩
    · rintro ⟨cell, cells, ⟨hposition, ht⟩, hcells, rfl⟩
      exact ⟨cell, ⟨cell.2, ht, by rw [hposition]⟩, cells, hcells, rfl⟩

/-- the cells of a workbook are read from the references of its worksheet and the texts of its table -/
theorem cells?_parts_eq_some_iff {w : Worksheet} {cells : List ((Nat × Nat) × List Char)} :
    cells? (parts w) = some cells ↔ ∃ texts,
      (if w.strings.texts.isEmpty then some [] else SharedStrings.read? (Xml.document w.strings.xml)) = some texts ∧
      List.Forall₂ (fun ref cell => ref.1 = cell.1 ∧ texts[ref.2]? = some cell.2) (Worksheet.refs w.rows) cells := by
  have hrefs := w.readRefs?_document
  obtain ⟨tokens, htokens, hrefs⟩ := Option.bind_eq_some_iff.1 hrefs
  rw [cells?_parts, readCells?]
  simp only [htokens, hrefs, Option.bind_eq_bind, Option.bind_some]
  cases w.strings.texts.isEmpty with
  | false =>
    rw [if_neg Bool.false_ne_true, if_neg Bool.false_ne_true, Option.bind_eq_some_iff]
    exact exists_congr fun texts => and_congr_right fun _ => mapM_eq_some_iff
  | true =>
    rw [if_pos rfl, if_pos rfl]
    refine mapM_eq_some_iff.trans ⟨fun h => ⟨[], rfl, h⟩, ?_⟩
    rintro ⟨texts, htexts, h⟩
    cases htexts
    exact h

end Workbook

namespace Document

/-! ## The round trip -/

/-- lists that are related to one list are related to each other through it -/
theorem exists_of_forall₂ {α β γ : Type} {R : α → β → Prop} {S : α → γ → Prop} {l : List α} {l1 : List β} {l2 : List γ}
    (h1 : List.Forall₂ R l l1) (h2 : List.Forall₂ S l l2) {b : β} (hb : b ∈ l1) : ∃ a, ∃ c ∈ l2, R a b ∧ S a c := by
  induction h1 generalizing l2 with
  | nil => cases hb
  | cons hr _ ih =>
    cases h2 with
    | cons hs h2 =>
      rcases List.mem_cons.1 hb with rfl | hb
      · exact ⟨_, _, List.mem_cons_self, hr, hs⟩
      · obtain ⟨a, c, hc, h⟩ := ih h2 hb
        exact ⟨a, c, List.mem_cons_of_mem _ hc, h⟩

theorem exists_of_workbook {d : Document} {bytes : List UInt8} (h : d.workbook = .ok bytes) :
    ∃ w, Worksheet.ofDocument d = .ok w ∧ d.parts = .ok (Workbook.parts w) ∧
      Workbook.archive (Workbook.parts w) = bytes := by
  unfold Document.workbook Document.parts at h
  unfold Document.parts
  cases hw : Worksheet.ofDocument d with
  | error e =>
    rw [hw] at h
    cases h
  | ok w =>
    rw [hw] at h
    exact ⟨w, rfl, rfl, Except.ok.inj h⟩

section Worksheet

variable {d : Document} {w : Worksheet}

/-- the texts of the table are those of the cells -/
theorem mem_texts_iff (hw : Worksheet.ofDocument d = .ok w) {s : String} :
    s ∈ w.strings.texts.toList ↔ s ≠ "" ∧ ∃ row ∈ d.rows, s ∈ row := by
  obtain ⟨hgrows, hleads⟩ := Worksheet.exists_of_ofDocument hw
  rw [← mem_textsOf_filled]
  constructor
  · intro hs
    refine (hgrows.texts s hs).resolve_left fun hs => ?_
    cases hs
  · intro hs
    obtain ⟨cell, hcell, rfl⟩ := List.mem_map.1 hs
    obtain ⟨ref, -, -, ⟨-, s, hs, ht⟩, -⟩ := exists_of_forall₂ hleads hleads hcell
    rw [← ht, String.ofList_toList]
    exact List.mem_of_getElem? (Array.getElem?_toList ▸ hs)

/-- what is seen at the position of a text is the text that is read under its number -/
theorem getElem?_of_shownBy (hw : Worksheet.ofDocument d = .ok w) {texts : List (List Char)}
    {cells : List ((Nat × Nat) × List Char)}
    (hread : List.Forall₂ (fun ref cell => ref.1 = cell.1 ∧ texts[ref.2]? = some cell.2) (Worksheet.refs w.rows) cells)
    (hshown : d.ShownBy cells) {s : String} {n : Nat} (hs : w.strings.texts[n]? = some s) :
    texts[n]? = some s.toList := by
  obtain ⟨hgrows, hleads⟩ := Worksheet.exists_of_ofDocument hw
  have hmem : s ∈ Worksheet.textsOf d.filled :=
    mem_textsOf_filled.2 ((mem_texts_iff hw).1 (List.mem_of_getElem? (Array.getElem?_toList ▸ hs)))
  obtain ⟨⟨⟨r, c⟩, t⟩, hcell, rfl⟩ := List.mem_map.1 hmem
  obtain ⟨ref, ⟨position, x⟩, hseen, ⟨hposition, s', hs', ht⟩, hposition', hx⟩ := exists_of_forall₂ hleads hread hcell
  obtain rfl : (r, c) = position := hposition.symm.trans hposition'
  -- the text has one number only
  have hnumber : ref.2 = n := by
    have heq : s' = String.ofList t := by rw [← String.ofList_toList (s := s'), ht]
    rw [heq] at hs'
    exact Option.some.inj (((hgrows.sound _ _).2 hs').symm.trans ((hgrows.sound _ _).2 hs))
  obtain ⟨-, s'', hs'', ht'⟩ := mem_filled.1 hcell
  have htext := hshown.text r c
  unfold textAt at htext
  rw [(lookup_eq_some_iff_mem hshown.once).2 hseen, hs'', Option.getD_some, Option.getD_some, ht'] at htext
  rw [← hnumber, hx, htext, String.toList_ofList]

/-- what is seen as it was written held no markup and no character that XML has no place for -/
theorem plain_of_shownBy (hw : Worksheet.ofDocument d = .ok w) {cells : List ((Nat × Nat) × List Char)}
    (hcells : Workbook.cells? (Workbook.parts w) = some cells) (hshown : d.ShownBy cells) :
    ∀ s ∈ w.strings.texts.toList, SharedStrings.Plain s := by
  obtain ⟨texts, htexts, hread⟩ := Workbook.cells?_parts_eq_some_iff.1 hcells
  intro s hs
  have hne : ¬ w.strings.texts.isEmpty = true := by
    intro hempty
    rw [Array.isEmpty_iff.1 hempty] at hs
    cases hs
  rw [if_neg hne] at htexts
  have hwritable := SharedStrings.writable_of_read? htexts
  refine ⟨((mem_texts_iff hw).1 hs).1, ?_, hwritable s hs⟩
  cases hfirst : w.strings.texts.toList.find? fun x => SharedStrings.isRuns x.toList with
  | none => simpa using List.find?_eq_none.1 hfirst s hs
  | some first =>
    -- the first text that is markup is read shorter than it was
    obtain ⟨hruns, front, back, hsplit, hfront⟩ := List.find?_eq_some_iff_append.1 hfirst
    have hplain : ∀ x ∈ front, SharedStrings.Plain x := by
      intro x hx
      have hmem : x ∈ w.strings.texts.toList := by
        rw [hsplit]
        exact List.mem_append_left _ hx
      exact ⟨((mem_texts_iff hw).1 hmem).1, by simpa using hfront x hx, hwritable x hmem⟩
    obtain ⟨x, more, hx, hlt⟩ := SharedStrings.exists_of_read?_runs hsplit hplain hruns htexts
    have hplace : w.strings.texts[front.length]? = some first := by simp [← Array.getElem?_toList, hsplit]
    have hseen := getElem?_of_shownBy hw hread hshown hplace
    have hfirst : texts[front.length]? = some x := by simp [hx]
    rw [hfirst, Option.some.injEq] at hseen
    rw [hseen] at hlt
    exact absurd hlt (Nat.lt_irrefl _)

end Worksheet

/-- **A workbook is read back as the table that was written, exactly if no text of it is the markup of formatted runs or
holds a character that XML has no place for** -/
theorem exists_shownBy_iff {d : Document} {bytes : List UInt8} (h : d.workbook = .ok bytes) :
    ∃ parts, d.parts = .ok parts ∧ Workbook.archive parts = bytes ∧
      ((∃ cells, Workbook.cells? parts = some cells ∧ d.ShownBy cells) ↔
        ∀ row ∈ d.rows, ∀ s ∈ row, SharedStrings.isRuns s.toList = false ∧ SharedStrings.Writable s.toList) := by
  obtain ⟨w, hw, hparts, hbytes⟩ := exists_of_workbook h
  refine ⟨Workbook.parts w, hparts, hbytes, ?_⟩
  constructor
  · rintro ⟨cells, hcells, hshown⟩ row hrow s hs
    by_cases hne : s = ""
    · subst hne
      exact ⟨rfl, List.forall_mem_nil _⟩
    · have hplain := plain_of_shownBy hw hcells hshown s ((mem_texts_iff hw).2 ⟨hne, row, hrow, hs⟩)
      exact ⟨hplain.notRuns, hplain.writable⟩
  · intro hplain
    have htable : ∀ s ∈ w.strings.texts.toList, SharedStrings.Plain s := by
      intro s hs
      obtain ⟨hne, row, hrow, hmem⟩ := (mem_texts_iff hw).1 hs
      obtain ⟨hruns, hwritable⟩ := hplain row hrow s hmem
      exact ⟨hne, hruns, hwritable⟩
    refine ⟨d.filled, Workbook.cells?_parts_eq_some_iff.2 ⟨w.strings.texts.toList.map String.toList, ?_, ?_⟩,
      d.shownBy_filled⟩
    · split
      · next hempty =>
        rw [Array.isEmpty_iff.1 hempty]
        rfl
      · exact SharedStrings.read?_document htable
    · refine (Worksheet.exists_of_ofDocument hw).2.imp ?_
      rintro ref cell ⟨hposition, s, hs, ht⟩
      refine ⟨hposition, ?_⟩
      rw [List.getElem?_map, Array.getElem?_toList, hs, Option.map_some, ht]

/-- markup signs, blanks at the ends, a text that looks like an escape, an empty cell and a text that comes twice -/
theorem exists_shownBy_signs : ∃ parts cells,
    (⟨[["a<b", " x "], ["_x0041_", "", "a<b"]]⟩ : Document).parts = .ok parts ∧
      Workbook.cells? parts = some cells ∧ (⟨[["a<b", " x "], ["_x0041_", "", "a<b"]]⟩ : Document).ShownBy cells := by
  have hok : (⟨[["a<b", " x "], ["_x0041_", "", "a<b"]]⟩ : Document).workbook.isOk = true := by decide +kernel
  cases h : (⟨[["a<b", " x "], ["_x0041_", "", "a<b"]]⟩ : Document).workbook with
  | error e =>
    rw [h] at hok
    cases hok
  | ok bytes =>
    obtain ⟨parts, hparts, -, hshown⟩ := exists_shownBy_iff h
    obtain ⟨cells, hcells, hshown⟩ := hshown.2 (by decide)
    exact ⟨parts, cells, hparts, hcells, hshown⟩

/-- the markup of formatted runs is read back as the text of the runs -/
theorem not_shownBy_runs : ∃ parts, (⟨[["<r><t>x</t></r>"]]⟩ : Document).parts = .ok parts ∧
    Workbook.cells? parts = some [((0, 0), ['x'])] ∧ ¬ (⟨[["<r><t>x</t></r>"]]⟩ : Document).ShownBy [((0, 0), ['x'])] := by
  have hw : Worksheet.ofDocument ⟨[["<r><t>x</t></r>"]]⟩ =
      .ok ⟨[⟨0, [(0, 0)]⟩], ⟨#["<r><t>x</t></r>"], (∅ : Std.HashMap String Nat).insert "<r><t>x</t></r>" 0, 1⟩⟩ := by
    have hfault : Worksheet.fault? 1 0 0 "<r><t>x</t></r>" = none := by decide +kernel
    simp [Worksheet.ofDocument, Worksheet.addRow, Worksheet.addCell, hfault, Worksheet.empty, SharedStrings.use,
      SharedStrings.empty]
  refine ⟨_, by rw [Document.parts, hw]; rfl, ?_, fun h => ?_⟩
  · rw [Workbook.cells?_parts_eq_some_iff]
    exact ⟨[['x']], by decide +kernel, .cons ⟨rfl, rfl⟩ .nil⟩
  · exact absurd (h.text 0 0) (by decide)

end Document

end SheetPost.Sheet
