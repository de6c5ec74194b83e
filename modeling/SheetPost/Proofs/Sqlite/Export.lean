/-
Tables of a database as they are exported. The type that a column is declared with is a matter of numbers alone: NULL,
bytes and texts that are no numerals go through a column of any type as they are, and are read back without a look at
the type. The names of the columns come with the first row or without any.

Main statement: `Catalog.exported`, for every table and whatever its columns are declared as.
-/
import SheetPost.Proofs.Relation.Export
import SheetPost.Proofs.Sqlite.Number
import SheetPost.Proofs.Text.Lossy
import SheetPost.Sqlite.Catalog

namespace SheetPost.Sqlite

open SheetPost.Text

/-! ## Values -/

/-- how a value stands in an exported table; what becomes of numbers is left open -/
def ShownAs (v : Value) (shown : String) : Prop :=
  match v with
  | .null => shown = "NULL"
  | .text s => ¬ IsNumeral s.toList → shown = s
  | .blob bytes => Utf8.Replaced bytes shown.toList ∧ ∀ s : String, Utf8.encode s.toList = bytes → shown = s
  | .int _ | .real _ => True

/-- what a value reads as, which is nothing for NULL -/
def Value.shown? : Value → Option String
  | .null => none
  | v => some (String.ofList (Utf8.decodeLossy v.bytes))

/-- a value that is asked for as text and one that is asked for as bytes read alike -/
theorem Value.read_fetched (column : String) (v : Value) : v.fetched.read column = .ok v.shown? := by
  by_cases hnull : v = .null
  · rw [hnull]
    rfl
  · have hshown : v.shown? = some (String.ofList (Utf8.decodeLossy v.bytes)) := by
      cases v with
      | null => exact absurd rfl hnull
      | _ => rfl
    rw [hshown, Relation.Cell.read, Value.fetched, if_neg (by simpa using hnull)]
    cases h : Utf8.decode? v.bytes with
    | none => rfl
    | some s => rw [Utf8.decodeLossy_of_decode? h]

/-! ## Columns -/

/-- a value as a column gives it out -/
def Column.kept (c : Column) (v : Value) : Value :=
  let affinity := Affinity.ofType c.type
  affinity.shown (affinity.store v)

namespace Column

/-- no type changes NULL -/
theorem kept_null (c : Column) : c.kept .null = .null := by
  unfold kept
  cases Affinity.ofType c.type <;> rfl

theorem kept_blob (c : Column) (bytes : List UInt8) : c.kept (.blob bytes) = .blob bytes := by
  unfold kept
  cases Affinity.ofType c.type <;> rfl

theorem kept_text (c : Column) {s : String} (h : ¬ IsNumeral s.toList) : c.kept (.text s) = .text s := by
  have hnumber : toNumber (.text s) = .text s := by
    simp only [toNumber, readNumber?_eq_none_iff.2 h]
  unfold kept
  cases Affinity.ofType c.type with
  | text | none => rfl
  | integer | real | numeric =>
    simp only [Affinity.store, hnumber]
    rfl

theorem shownAs_kept (c : Column) (v : Value) : ShownAs v ((c.kept v).shown?.getD Relation.nullText) := by
  cases v with
  | null =>
    rw [kept_null]
    rfl
  | int | real => trivial
  | text s =>
    intro h
    rw [kept_text c h]
    simp [Value.shown?, Value.bytes, Utf8.decodeLossy_encode]
  | blob bytes =>
    rw [kept_blob]
    constructor
    · simpa [Value.shown?, Value.bytes] using Utf8.replaced_decodeLossy bytes
    · rintro s rfl
      simp [Value.shown?, Value.bytes, Utf8.decodeLossy_encode]

end Column

/-! ## Rows -/

/-- a row as it reads, cell by cell -/
def shownRow (columns : List Column) (row : List Value) : List (Option String) :=
  List.zipWith (fun c v => (c.kept v).shown?) columns row

theorem read_row (columns : List Column) (row : List Value) :
    (List.zipWith Column.fetched columns row).mapM (fun (column, cell) => Relation.Cell.read column cell) =
      .ok (shownRow columns row) := by
  induction columns generalizing row with
  | nil => rfl
  | cons c columns ih =>
    cases row with
    | nil => rfl
    | cons v row =>
      have hcell : (match c.fetched v with | (column, cell) => Relation.Cell.read column cell) =
          .ok (c.kept v).shown? := (c.kept v).read_fetched c.name
      rw [List.zipWith_cons_cons, List.mapM_cons, hcell, ih]
      rfl

theorem shownAs_row {columns : List Column} {row : List Value} (h : row.length = columns.length) :
    List.Forall₂ ShownAs row ((shownRow columns row).map (·.getD Relation.nullText)) := by
  induction columns generalizing row with
  | nil =>
    rw [List.eq_nil_of_length_eq_zero h]
    exact .nil
  | cons c columns ih =>
    obtain ⟨v, row, rfl⟩ := List.exists_cons_of_length_eq_add_one h
    exact .cons (c.shownAs_kept v) (ih (Nat.succ.inj h))

/-! ## Tables -/

/-- every row of the table has a value for every column -/
def Table.WellFormed (t : Table) : Prop := ∀ row ∈ t.rows, row.length = t.columns.length

instance (t : Table) : Decidable t.WellFormed :=
  inferInstanceAs (Decidable (∀ row ∈ t.rows, row.length = t.columns.length))

namespace Table

variable {t : Table}

/-- the result set of the table -/
def shown (t : Table) : Relation.Rows := ⟨t.described, t.rows.map (shownRow t.columns)⟩

/-- the first row has the columns that the description has -/
theorem header_fetched (ht : t.WellFormed) : ∀ row ∈ t.fetched, row.map (·.1) = t.described := by
  intro fetched hfetched
  obtain ⟨row, hrow, rfl⟩ := List.mem_map.1 hfetched
  calc (List.zipWith Column.fetched t.columns row).map (·.1)
      = ((t.columns.zip row).map Prod.fst).map (·.name) := by
        rw [← List.map_uncurry_zip_eq_zipWith, List.map_map, List.map_map]
        rfl
    _ = t.described := by
        rw [List.map_fst_zip (ht row hrow).ge]
        rfl

theorem readRows_fetched (ht : t.WellFormed) : Relation.readRows t.fetched (.ok t.described) = .ok t.shown := by
  have hrows : t.fetched.mapM (fun row => row.mapM fun (column, cell) => Relation.Cell.read column cell) =
      .ok (t.rows.map (shownRow t.columns)) := by
    rw [fetched, List.mapM_map]
    simp only [Function.comp_def, read_row]
    exact List.mapM_pure
  unfold Relation.readRows
  rw [hrows]
  cases hfetched : t.fetched with
  | nil => rfl
  | cons first more =>
    have hheader := header_fetched ht first (by rw [hfetched]; exact List.mem_cons_self)
    simp only [hheader]
    rfl

theorem rectangular_shown (ht : t.WellFormed) : t.shown.Rectangular := by
  intro cells hcells
  obtain ⟨row, hrow, rfl⟩ := List.mem_map.1 hcells
  simp [shown, shownRow, described, ht row hrow]

end Table

/-! ## Names -/

/-- the text is a name of the table in the database -/
def Catalog.Names (c : Catalog) (relation : String) (t : Table) : Prop :=
  ∃ name, readTableName? relation.toList = some name ∧ c.find? name = some t

/-- a name with every quote in it doubled -/
def doubled (s : List Char) : List Char := s.flatMap fun c => if c == '"' then ['"', '"'] else [c]

theorem cutQuoted_doubled (s : List Char) : cutQuoted '"' (doubled s ++ ['"']) = some (s, []) := by
  induction s with
  | nil => rfl
  | cons c s ih =>
    rw [doubled, List.flatMap_cons, ← doubled]
    by_cases hc : c = '"'
    · subst hc
      simp [cutQuoted, ih]
    · have hone : (if c == '"' then ['"', '"'] else [c]) = [c] := by simp [hc]
      rw [hone, List.singleton_append, List.cons_append, cutQuoted.eq_def]
      simp [hc, ih]

theorem readTableName?_quotedName (name : String) :
    readTableName? (quotedName name).toList = some (none, name.toList) := by
  have hquoted : (quotedName name).toList = '"' :: (doubled name.toList ++ ['"']) := by
    rw [quotedName, String.toList_ofList, doubled]
  have htrim : trimWhile isSpace ('"' :: (doubled name.toList ++ ['"'])) = '"' :: (doubled name.toList ++ ['"']) := by
    refine trimWhile_eq_self (fun c hc => ?_) fun c hc => ?_
    · cases hc
      rfl
    · rw [← List.cons_append, List.getLast?_concat] at hc
      cases hc
      rfl
  have hcut : cutName ('"' :: (doubled name.toList ++ ['"'])) = some (name.toList, []) := cutQuoted_doubled name.toList
  rw [readTableName?, hquoted, htrim, hcut]

/-- a table that shares its name with none is named by that name in quotes, whatever the name is -/
theorem names_quotedName {c : Catalog} {t : Table} (hmem : t ∈ c)
    (hdistinct : c.Pairwise fun a b => sameName a.name.toList b.name.toList = false)
    (hmaster : sameName c.master.name.toList t.name.toList = false) : c.Names (quotedName t.name) t := by
  refine ⟨(none, t.name.toList), readTableName?_quotedName t.name, ?_⟩
  have hself : sameName t.name.toList t.name.toList = true := beq_self_eq_true _
  have hfind : c.find? (none, t.name.toList) = List.find? (fun a => sameName a.name.toList t.name.toList) c := by
    simp [Catalog.find?, hmaster]
  obtain ⟨before, after, rfl⟩ := List.append_of_mem hmem
  rw [hfind, List.find?_eq_some_iff_append]
  refine ⟨hself, before, after, rfl, fun a ha => ?_⟩
  rw [(List.pairwise_append.1 hdistinct).2.2 a ha t List.mem_cons_self]
  rfl

/-! ## Exports -/

theorem query_of_names {c : Catalog} {relation : String} {t : Table} (h : c.Names relation t) :
    c.query (Relation.selectAll relation) = Relation.readRows t.fetched (.ok t.described) := by
  obtain ⟨name, hname, hfind⟩ := h
  have hsql : (Relation.selectAll relation).toList = (Relation.selectAll "").toList ++ relation.toList := by
    rw [Relation.selectAll, Relation.selectAll, String.append_empty, String.toList_append]
  rw [Catalog.query, hsql, after?_append, Option.bind_some, hname]
  simp only [hfind]

/-- what an export of the table is to be -/
structure Table.ExportedAs (t : Table) (d : Sheet.Document) : Prop where
  header : d.rows.head? = some (t.columns.map (·.name))
  cells : List.Forall₂ (List.Forall₂ ShownAs) t.rows d.rows.tail
  width : ∀ row ∈ d.rows, row.length = t.columns.length

/-- **Tables are exported without a look at the types**: the names of the columns, with rows below or none, and below
them every row in its place, NULL, bytes and texts that are no numerals as they are -/
theorem Catalog.exported {c : Catalog} {relation : String} {t : Table} (hname : c.Names relation t)
    (ht : t.WellFormed) :
    ∃ d, Relation.document relation (c.query (Relation.selectAll relation)) = .ok d ∧ t.ExportedAs d := by
  have hdocument := Relation.Rows.document_of_rectangular (Table.rectangular_shown ht) relation
  have hshows := Relation.shows_of_document hdocument
  rw [query_of_names hname, Table.readRows_fetched ht]
  refine ⟨_, hdocument, rfl, ?_, fun row hrow => ?_⟩
  · rw [List.tail_cons, Table.shown, List.map_map, List.forall₂_map_right_iff, List.forall₂_same]
    exact fun row hrow => shownAs_row (ht row hrow)
  · rw [hshows.width row hrow, Table.shown, Table.described, List.length_map]

/-- columns of types that say other things than what is in them -/
def oddTable : Table where
  name := "on \"hold\""
  columns := [⟨"day", "INTEGER"⟩, ⟨"note", "POINT IN TIME"⟩, ⟨"scan", "DOUBLE"⟩]
  rows := [[.text "2024-01-31", .null, .blob [0x61, 0xFF]], [.null, .text "late", .text "1e3"]]

theorem Catalog.exported_oddTable :
    Catalog.Names [oddTable] (quotedName oddTable.name) oddTable ∧ oddTable.WellFormed ∧
      ∃ d, Relation.document (quotedName oddTable.name)
          (Catalog.query [oddTable] (Relation.selectAll (quotedName oddTable.name))) = .ok d ∧
        oddTable.ExportedAs d := by
  have hname : Catalog.Names [oddTable] (quotedName oddTable.name) oddTable :=
    names_quotedName List.mem_cons_self (List.pairwise_singleton _ _) (by decide)
  have ht : oddTable.WellFormed := by decide
  exact ⟨hname, ht, exported hname ht⟩

end SheetPost.Sqlite
