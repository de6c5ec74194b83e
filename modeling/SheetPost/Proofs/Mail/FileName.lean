/-
The two parameters that name the file of an attachment, read one beside the other. The extended one holds the bytes of
the name. The plain one is escaped as a quoted string first, and put into encoded words then: the words hide the escapes
from a reader of quoted strings, so what they decode to is the name with a backslash before each quote and backslash.

Main statement: what is read from either, and that it is the same just if the name holds none of the two signs
(`names_agree_iff`).
-/
import SheetPost.Proofs.Mail.Disposition

namespace SheetPost.Mail.Disposition

open SheetPost.Text

/-! ## Reading one parameter -/

/-- the text of a parameter -/
def parameter? (name field : List Char) : Option (List Char) :=
  (read? field).bind fun (_, parameters) => parameters.lookup name

/-- the name in the plain parameter: what stands in the quotes, unfolded and with its encoded words decoded -/
def plainName? (field : List Char) : Option (List Char) :=
  (parameter? "filename".toList field).map fun text => EncodedWord.decodeText (unfolded text)

/-- the name in the extended parameter -/
def extendedName? (field : List Char) : Option (List Char) :=
  (parameter? "filename*".toList field).bind readExtended?

theorem parameter?_of_read? {field kind : List Char} {parameters : List (List Char × List Char)}
    (h : read? field = some (kind, parameters)) (name : List Char) :
    parameter? name field = parameters.lookup name := by
  rw [parameter?, h]
  rfl

theorem readExtended?_extended (name : List Char) : readExtended? (extended name) = some name := by
  have hbytes := Percent.decode_encode (fun b hb => (of_isAttrByte hb).2) (Utf8.encode name)
  unfold readExtended? extended
  rw [after?_append, Option.bind_some, hbytes, Utf8.decode?_encode]

/-- the two names of a field whose quotes hold nothing that is escaped -/
theorem names_of_pair {shown name field : List Char} (hshown : QuotedString.body shown = shown)
    (hfield : field = "attachment; filename=\"".toList ++ (shown ++ ("\"; filename*=".toList ++ extended name))) :
    plainName? field = some (EncodedWord.decodeText (unfolded shown)) ∧ extendedName? field = some name := by
  have hread := read?_pair hshown name
  rw [← hfield] at hread
  have hplain : [("filename".toList, shown), ("filename*".toList, extended name)].lookup "filename".toList =
      some shown := List.lookup_cons_self
  have hextended : [("filename".toList, shown), ("filename*".toList, extended name)].lookup "filename*".toList =
      some (extended name) := by
    rw [List.lookup_cons, List.lookup_cons_self]
    rfl
  constructor
  · rw [plainName?, parameter?_of_read? hread, hplain, Option.map_some]
  · rw [extendedName?, parameter?_of_read? hread, hextended, Option.bind_some, readExtended?_extended]

/-! ## Names beyond ASCII -/

/-- folded words hold nothing that is escaped between quotes either -/
theorem body_encode {s : List Char} (h : isAscii s = false) :
    QuotedString.body (EncodedWord.encode s) = EncodedWord.encode s := by
  have hplain : ∀ c ∈ EncodedWord.encode s, (c != '"' && c != '\\') = true := by
    intro c hc
    rw [EncodedWord.encode, h, if_neg Bool.false_ne_true] at hc
    rcases mem_join hc with hc | ⟨w, hw, hc⟩
    · exact List.all_eq_true.1 (by decide : EncodedWord.fold.all (fun c => c != '"' && c != '\\') = true) c hc
    · obtain ⟨t, -, rfl⟩ := List.mem_map.1 hw
      exact EncodedWord.forall_mem_word (p := fun c => c != '"' && c != '\\') (by decide) (by decide) c hc
  rw [body_eq_self_iff]
  exact ⟨fun hmem => absurd (hplain _ hmem) (by decide), fun hmem => absurd (hplain _ hmem) (by decide)⟩

theorem flatten_of_hasBreak {name : List Char} (h : hasBreak name = false) : flatten name = name := by
  rw [hasBreak_eq_false_iff] at h
  rw [flatten]
  conv => rhs; rw [← List.map_id name]
  refine List.map_congr_left fun c hc => ?_
  rw [if_neg (by simp [h c hc]), id]

/-- **When the two parameters name the same file.** A name beyond ASCII and without line breaks is read back from the
extended parameter. From the plain one its escaped form is read, so the two agree just if nothing is escaped, that is if
neither a quote nor a backslash stands in the name. It does not matter whether the field is unfolded before it is read. -/
theorem names_agree_iff {name field : List Char} (hbeyond : isAscii name = false) (hbreak : hasBreak name = false)
    (hfield : field = encode name ∨ field = unfolded (encode name)) :
    extendedName? field = some name ∧ plainName? field = some (QuotedString.body name) ∧
    (plainName? field = extendedName? field ↔ '"' ∉ name ∧ '\\' ∉ name) := by
  have hflat := flatten_of_hasBreak hbreak
  have hescaped : isAscii (QuotedString.body name) = false := by rw [isAscii_body, hbeyond]
  have hwords := folded_encode (hasBreak_body hbreak)
  have hdecode := EncodedWord.decodeText_unfolded_encode hescaped
  have hread : plainName? field = some (QuotedString.body name) ∧ extendedName? field = some name := by
    rcases hfield with hfield | hfield
    · rw [encode, hbeyond, if_neg Bool.false_ne_true, hflat] at hfield
      have hnames := names_of_pair (body_encode hescaped) hfield
      rwa [hdecode] at hnames
    · rw [unfolded_of_beyond hbeyond, hflat] at hfield
      have hnames := names_of_pair (body_unfolded_encode hescaped) hfield
      rwa [unfolded_of_hasBreak hwords.hasBreak_unfolded, hdecode] at hnames
  refine ⟨hread.2, hread.1, ?_⟩
  rw [hread.1, hread.2, Option.some.injEq, body_eq_self_iff]

/-- a name with the signs of parameters that are not escaped -/
theorem names_agree_semicolon :
    isAscii "\u00e4; filename*=b.csv".toList = false ∧ hasBreak "\u00e4; filename*=b.csv".toList = false ∧
    plainName? (encode "\u00e4; filename*=b.csv".toList) = some "\u00e4; filename*=b.csv".toList ∧
    extendedName? (encode "\u00e4; filename*=b.csv".toList) = some "\u00e4; filename*=b.csv".toList := by
  have hbeyond : isAscii "\u00e4; filename*=b.csv".toList = false := by decide
  have hbreak : hasBreak "\u00e4; filename*=b.csv".toList = false := by decide
  obtain ⟨hextended, -, hagree⟩ := names_agree_iff hbeyond hbreak (.inl rfl)
  exact ⟨hbeyond, hbreak, (hagree.2 (by decide)).trans hextended, hextended⟩

/-- a quote in a name is read with its backslash from the plain parameter -/
theorem names_differ_quote :
    plainName? (encode "\u00e4\"b.csv".toList) = some "\u00e4\\\"b.csv".toList ∧
    extendedName? (encode "\u00e4\"b.csv".toList) = some "\u00e4\"b.csv".toList ∧
    plainName? (encode "\u00e4\"b.csv".toList) ≠ extendedName? (encode "\u00e4\"b.csv".toList) := by
  decide +kernel

end SheetPost.Mail.Disposition
