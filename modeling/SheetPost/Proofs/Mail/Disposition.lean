/-
File names in headers: in a quoted string, and for a name beyond ASCII percent-encoded in a second parameter. A name
may hold any of the signs that parameters are written with: between the quotes each quote and each backslash is escaped,
and the second parameter is written without them.

Main statement: the parameters that a reader finds (`parameters_of_encode`).
-/
import SheetPost.Mail.Disposition
import SheetPost.Proofs.Mail.EncodedWord
import SheetPost.Proofs.Mail.RoundTrip
import SheetPost.Proofs.Mail.WrittenLines
import SheetPost.Proofs.Text.Percent

namespace SheetPost.Mail.Disposition

open SheetPost.Text

/-! ## Parameters -/

/-- the value behind an equals sign is a quoted string, or whatever stands up to the next semicolon -/
theorem readParameters?_cons {name value text rest : List Char} (hspace : name.head? ≠ some ' ') (hname : '=' ∉ name)
    (hlength : rest.length ≤ value.length)
    (hvalue : (QuotedString.read? value).getD (value.takeWhile (· != ';'), value.dropWhile (· != ';')) = (text, rest)) :
    readParameters? (';' :: ' ' :: (name ++ '=' :: value)) = (readParameters? rest).map ((name, text) :: ·) := by
  have hdrop : (' ' :: (name ++ '=' :: value)).dropWhile (· == ' ') = name ++ '=' :: value := by
    rw [List.dropWhile_cons_of_pos (by decide)]
    refine dropWhile_eq_self fun c hc => ?_
    cases name with
    | nil =>
      cases hc
      rfl
    | cons d name =>
      cases hc
      simpa using hspace
  have hle : rest.length ≤ (' ' :: (name ++ '=' :: value)).length := by
    simp only [List.length_cons, List.length_append]
    omega
  rw [readParameters?]
  simp only [bne_self_eq_false, Bool.false_eq_true, if_false]
  rw [hdrop, cutAt_append hname]
  cases hq : QuotedString.read? value with
  | none =>
    rw [hq, Option.getD_none, Prod.mk.injEq] at hvalue
    obtain ⟨rfl, rfl⟩ := hvalue
    simp only [hq]
    rw [if_pos hle]
  | some cut =>
    rw [hq, Option.getD_some] at hvalue
    subst hvalue
    simp only [hq]
    rw [if_pos hle]

theorem readParameters?_quoted {name : List Char} (hspace : name.head? ≠ some ' ') (hname : '=' ∉ name)
    (text rest : List Char) :
    readParameters? (';' :: ' ' :: (name ++ '=' :: '"' :: (QuotedString.body text ++ '"' :: rest))) =
      (readParameters? rest).map ((name, text) :: ·) := by
  refine readParameters?_cons hspace hname ?_ ?_
  · simp only [List.length_cons, List.length_append]
    omega
  · rw [QuotedString.read?, QuotedString.readBody?_body, Option.getD_some]

/-- the last parameter, if it is written without quotes -/
theorem readParameters?_plain {name value : List Char} (hspace : name.head? ≠ some ' ') (hname : '=' ∉ name)
    (hquote : value.head? ≠ some '"') (hvalue : ';' ∉ value) :
    readParameters? (';' :: ' ' :: (name ++ '=' :: value)) = some [(name, value)] := by
  have hread : QuotedString.read? value = none := by
    rw [QuotedString.read?.eq_2]
    intro r hr
    exact hquote (by rw [hr]; rfl)
  have hall : ∀ c ∈ value, (c != ';') = true := by
    intro c hc
    simpa using fun e : c = ';' => hvalue (e ▸ hc)
  have hcut : (QuotedString.read? value).getD (value.takeWhile (· != ';'), value.dropWhile (· != ';')) =
      (value, []) := by
    rw [hread, Option.getD_none, List.takeWhile_eq_self_iff.2 hall, List.dropWhile_eq_nil_iff.2 hall]
  rw [readParameters?_cons hspace hname (Nat.zero_le _) hcut, readParameters?, Option.map_some]

theorem read?_attachment (s : List Char) :
    read? ("attachment".toList ++ ';' :: s) =
      (readParameters? (';' :: s)).map fun parameters => ("attachment".toList, parameters) := by
  have hkind : ∀ c ∈ "attachment".toList, (c != ';') = true := List.all_eq_true.1 (by decide)
  have htake : ("attachment".toList ++ ';' :: s).takeWhile (· != ';') = "attachment".toList :=
    takeWhile_append hkind fun c hc => by cases hc; rfl
  have hdrop : ("attachment".toList ++ ';' :: s).dropWhile (· != ';') = ';' :: s := by
    rw [List.dropWhile_append_of_pos hkind, List.dropWhile_cons_of_neg (by decide)]
  rw [read?, htake, hdrop]

/-! ## Extended values -/

/-- a character that an extended value holds as it is -/
def isAttrChar (c : Char) : Bool := c.isAlphanum || "!#$&+-.^_\x60|~".toList.contains c

/-- a text of such characters, and of percent signs with two digits behind them -/
inductive IsExtended : List Char → Prop where
  | nil : IsExtended []
  | char {c : Char} {s : List Char} : isAttrChar c = true → IsExtended s → IsExtended (c :: s)
  | escape {a b : Char} {s : List Char} : QuotedPrintable.IsUpperHex a → QuotedPrintable.IsUpperHex b → IsExtended s →
      IsExtended ('%' :: a :: b :: s)

/-- what the bytes are that are not escaped -/
theorem of_isAttrByte {b : UInt8} (h : isAttrByte b = true) :
    isAttrChar (Char.ofNat b.toNat) = true ∧ b.toNat < 0x80 ∧ b ≠ 0x25 := by
  have hall : ∀ n : Fin 256, isAttrByte (UInt8.ofNat n) = true →
      isAttrChar (Char.ofNat (UInt8.ofNat n).toNat) = true ∧ (UInt8.ofNat n).toNat < 0x80 ∧ UInt8.ofNat n ≠ 0x25 := by
    decide +kernel
  have := hall ⟨b.toNat, b.toNat_lt⟩
  rw [UInt8.ofNat_toNat] at this
  exact this h

theorem isExtended_encode (bytes : List UInt8) : IsExtended (Percent.encode isAttrByte bytes) := by
  induction bytes with
  | nil => exact .nil
  | cons b bytes ih =>
    have hb := b.toNat_lt
    rw [Percent.encode_cons]
    split
    · next h => exact .char (of_isAttrByte h).1 ih
    · exact .escape (QuotedPrintable.isUpperHex_hexDigit (by omega)) (QuotedPrintable.isUpperHex_hexDigit (by omega)) ih

theorem IsExtended.semicolon {s : List Char} (h : IsExtended s) : ';' ∉ s := by
  have hupper {c : Char} (hc : QuotedPrintable.IsUpperHex c) : c ≠ ';' := by
    intro he
    subst he
    exact absurd hc (by simp [QuotedPrintable.IsUpperHex])
  induction h with
  | nil => exact List.not_mem_nil
  | char hc _ ih =>
    rw [List.mem_cons, not_or]
    refine ⟨?_, ih⟩
    intro he
    subst he
    exact absurd hc (by decide)
  | escape ha hb _ ih =>
    simp only [List.mem_cons, not_or]
    exact ⟨by decide, (hupper ha).symm, (hupper hb).symm, ih⟩

/-! ## File names -/

/-- encoded words hold nothing that is escaped between quotes -/
theorem body_unfolded_encode {s : List Char} (h : isAscii s = false) :
    QuotedString.body (unfolded (EncodedWord.encode s)) = unfolded (EncodedWord.encode s) := by
  have hplain := EncodedWord.forall_mem_unfolded_encode
    (p := fun c => c != '\\' && c != '"') (by decide) (by decide) (by decide) h
  refine QuotedString.body_of_not_mem ?_ ?_
  · intro hmem
    exact absurd (hplain _ hmem) (by decide)
  · intro hmem
    exact absurd (hplain _ hmem) (by decide)

theorem isAscii_flatten (name : List Char) : isAscii (flatten name) = isAscii name := by
  have hflat (c : Char) :
      decide ((if c == '\r' || c == '\n' then ' ' else c).toNat < 0x80) = decide (c.toNat < 0x80) := by
    split
    · next h =>
      rw [Bool.or_eq_true, beq_iff_eq, beq_iff_eq] at h
      rcases h with rfl | rfl <;> decide
    · rfl
  rw [isAscii, flatten, List.all_map, isAscii]
  exact congrArg name.all (funext hflat)

/-- without its folds a name beyond ASCII is written as words between quotes, and percent-encoded behind them -/
theorem unfolded_of_beyond {name : List Char} (h : isAscii name = false) :
    unfolded (encode name) = "attachment; filename=\"".toList ++
      (unfolded (EncodedWord.encode (QuotedString.body (flatten name))) ++
        ("\"; filename*=".toList ++ extended name)) := by
  have hlead : hasBreak "attachment; filename=\"".toList = false := by decide
  have hend : hasBreak ("\"; filename*=".toList ++ extended name) = false :=
    hasBreak_append (by decide) (hasBreak_extended name)
  have hwords := folded_encode (hasBreak_body (hasBreak_flatten name))
  rw [encode, h, if_neg Bool.false_ne_true,
    (folded_of_hasBreak hlead).unfolded_append (hwords.append (folded_of_hasBreak hend)),
    hwords.unfolded_append (folded_of_hasBreak hend), unfolded_of_hasBreak hlead, unfolded_of_hasBreak hend]

/-- a name of ASCII is the only parameter, in a quoted string -/
theorem read?_of_ascii {name : List Char} (h : isAscii name = true) :
    read? (encode name) = some ("attachment".toList, [("filename".toList, flatten name)]) := by
  have hlead : "attachment; filename=\"".toList =
      "attachment".toList ++ ';' :: ' ' :: ("filename".toList ++ ['=', '"']) := by decide
  have htext : encode name = "attachment".toList ++
      ';' :: ' ' :: ("filename".toList ++ '=' :: '"' :: (QuotedString.body (flatten name) ++ '"' :: [])) := by
    rw [encode, if_pos h, hlead]
    simp
  rw [htext, read?_attachment, readParameters?_quoted (by decide) (by decide), readParameters?]
  rfl

/-- behind quotes stands an extended parameter, and nothing else -/
theorem read?_pair {shown : List Char} (hshown : QuotedString.body shown = shown) (name : List Char) :
    read? ("attachment; filename=\"".toList ++ (shown ++ ("\"; filename*=".toList ++ extended name))) =
      some ("attachment".toList, [("filename".toList, shown), ("filename*".toList, extended name)]) := by
  have hlead : "attachment; filename=\"".toList =
      "attachment".toList ++ ';' :: ' ' :: ("filename".toList ++ ['=', '"']) := by decide
  have hnext : "\"; filename*=".toList = '"' :: ';' :: ' ' :: ("filename*".toList ++ ['=']) := by decide
  have htext : "attachment; filename=\"".toList ++ (shown ++ ("\"; filename*=".toList ++ extended name)) =
      "attachment".toList ++ ';' :: ' ' :: ("filename".toList ++ '=' :: '"' :: (QuotedString.body shown ++ '"' ::
        (';' :: ' ' :: ("filename*".toList ++ '=' :: extended name)))) := by
    rw [hlead, hnext, hshown]
    simp only [List.append_assoc, List.cons_append, List.nil_append]
  have hvalue : ';' ∉ extended name := by
    unfold extended
    rw [List.mem_append, not_or]
    exact ⟨by decide, (isExtended_encode _).semicolon⟩
  have hquote : (extended name).head? ≠ some '"' := by
    unfold extended
    rw [List.head?_append_of_ne_nil _ (by decide)]
    decide
  rw [htext, read?_attachment, readParameters?_quoted (by decide) (by decide),
    readParameters?_plain (by decide) (by decide) hquote hvalue]
  rfl

/-- any other name stands between quotes as words, unfolded -/
theorem read?_of_beyond {name : List Char} (h : isAscii name = false) :
    ∃ shown, read? (unfolded (encode name)) =
      some ("attachment".toList, [("filename".toList, shown), ("filename*".toList, extended name)]) := by
  have hbeyond : isAscii (QuotedString.body (flatten name)) = false := by rw [isAscii_body, isAscii_flatten, h]
  refine ⟨unfolded (EncodedWord.encode (QuotedString.body (flatten name))), ?_⟩
  rw [unfolded_of_beyond h, read?_pair (body_unfolded_encode hbeyond)]

/-- **The file name in its header**. A name of ASCII is written in one line, as a single parameter: a quoted string that
holds the name, with each line break shown as a space. Any other name comes with a second parameter, made of plain
characters and escapes, that holds the bytes of the name. There are no other parameters, whatever the name holds. -/
theorem parameters_of_encode (name : List Char) :
    (isAscii name = true → hasBreak (encode name) = false ∧
      read? (encode name) = some ("attachment".toList, [("filename".toList, flatten name)])) ∧
    (isAscii name = false → ∃ shown x, read? (unfolded (encode name)) =
        some ("attachment".toList, [("filename".toList, shown), ("filename*".toList, "utf-8''".toList ++ x)]) ∧
      IsExtended x ∧ Percent.decode x = Utf8.encode name) := by
  constructor
  · intro hascii
    have hinner := hasBreak_body (hasBreak_flatten name)
    refine ⟨?_, read?_of_ascii hascii⟩
    rw [encode, if_pos hascii]
    exact hasBreak_append (by decide) (hasBreak_append hinner (by decide))
  · intro hascii
    obtain ⟨shown, hread⟩ := read?_of_beyond hascii
    have hbytes := Percent.decode_encode (fun b hb => (of_isAttrByte hb).2) (Utf8.encode name)
    exact ⟨shown, _, hread, isExtended_encode _, hbytes⟩

/-- names that hold the signs of parameters -/
theorem parameters_of_encode_signs :
    isAscii "a\"; x=\"\\\r\nb".toList = true ∧
    read? (encode "a\"; x=\"\\\r\nb".toList) =
      some ("attachment".toList, [("filename".toList, "a\"; x=\"\\  b".toList)]) ∧
    isAscii "\u00e4\"; filename*=x".toList = false ∧
    ∃ shown x, read? (unfolded (encode "\u00e4\"; filename*=x".toList)) =
        some ("attachment".toList, [("filename".toList, shown), ("filename*".toList, "utf-8''".toList ++ x)]) ∧
      IsExtended x ∧ Percent.decode x = Utf8.encode "\u00e4\"; filename*=x".toList := by
  have hplain : isAscii "a\"; x=\"\\\r\nb".toList = true := by decide
  have hbeyond : isAscii "\u00e4\"; filename*=x".toList = false := by decide
  exact ⟨hplain, ((parameters_of_encode _).1 hplain).2, hbeyond, (parameters_of_encode _).2 hbeyond⟩

end SheetPost.Mail.Disposition
