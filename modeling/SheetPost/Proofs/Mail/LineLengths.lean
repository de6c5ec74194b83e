/-
How long the lines of header values are, in bytes. Lengths are put together as texts are: what stands behind a text goes
on in its last line (`linked`), so a value has its lengths from its pieces, and no text has to be split to know them.
Encoded words are the only values with folds; whatever stands behind them has the line of the last word.
-/
import SheetPost.Proofs.Mail.SevenBit

namespace SheetPost.Mail

open SheetPost.Text

/-! ## Lengths put together -/

/-- how many bytes the lines of a text take, without their breaks -/
def lineLengths (s : List Char) : List Nat := (splitLines s).map Utf8.length

/-- the lengths of lines with `k` bytes in front of the first -/
def behind (k : Nat) : List Nat → List Nat
  | [] => [k]
  | n :: ns => (k + n) :: ns

/-- the lengths of the lines of two texts, where the last line of one goes on as the first line of the other -/
def linked : List Nat → List Nat → List Nat
  | [], ns => ns
  | [k], ns => behind k ns
  | k :: l :: ks, ns => k :: linked (l :: ks) ns

theorem behind_behind (j k : Nat) (ns : List Nat) : behind j (behind k ns) = behind (j + k) ns := by
  cases ns with
  | nil => rfl
  | cons n ns => rw [behind, behind, behind, Nat.add_assoc]

theorem linked_behind (k : Nat) (ks ns : List Nat) : linked (behind k ks) ns = behind k (linked ks ns) := by
  match ks with
  | [] => rfl
  | [l] => exact (behind_behind k l ns).symm
  | l :: m :: ks => rfl

theorem lineLengths_append {p : List Char} (hp : '\r' ∉ p) (s : List Char) :
    lineLengths (p ++ s) = behind (Utf8.length p) (lineLengths s) := by
  cases hs : splitLines s with
  | nil => exact absurd hs (splitLines_ne_nil s)
  | cons l ls =>
    rw [lineLengths, lineLengths, splitLines_append hp hs, hs, List.map_cons, List.map_cons, Utf8.length_append]
    rfl

/-- a folded text does not end within a line break -/
theorem Folded.lineLengths_append {s : List Char} (h : Folded s) (t : List Char) :
    lineLengths (s ++ t) = linked (lineLengths s) (lineLengths t) := by
  have hchar {c : Char} (hc : c ≠ '\r') (r : List Char) :
      lineLengths (c :: r) = behind (Utf8.length [c]) (lineLengths r) :=
    Mail.lineLengths_append (p := [c]) (by simpa using hc.symm) r
  have hfold (r : List Char) : lineLengths ('\r' :: '\n' :: ' ' :: r) = 0 :: behind 1 (lineLengths r) := by
    have hblank := hchar (c := ' ') (by decide) r
    rw [lineLengths, splitLines, List.map_cons, ← lineLengths, hblank]
    rfl
  induction h with
  | nil =>
    have hsingle : lineLengths [] = [0] := rfl
    rw [hsingle, List.nil_append, lineLengths]
    cases hs : splitLines t with
    | nil => exact absurd hs (splitLines_ne_nil t)
    | cons l ls => rw [linked, List.map_cons, behind, Nat.zero_add]
  | char hr _ _ ih => rw [List.cons_append, hchar hr, hchar hr, ih, linked_behind]
  | @fold s _ ih =>
    rw [List.cons_append, List.cons_append, List.cons_append, hfold, hfold, ih, ← linked_behind]
    cases lineLengths s <;> rfl

theorem lineLengths_of_hasBreak {s : List Char} (h : hasBreak s = false) : lineLengths s = [Utf8.length s] := by
  rw [lineLengths, splitLines_of_hasBreak h, List.map_singleton]

/-- a text of ASCII in one line -/
theorem lineLengths_of_plain {s : List Char} (hbreak : hasBreak s = false) (hascii : isAscii s = true) :
    lineLengths s = [s.length] := by
  rw [lineLengths_of_hasBreak hbreak, Utf8.length_of_ascii (isAscii_iff.1 hascii)]

/-! ## Encoded words -/

/-- the length of the word for a piece of a text -/
def wordLength (t : List Char) : Nat := 12 + (Utf8.length t + 2) / 3 * 4

/-- the lengths of the lines of words: each but the first stands behind the blank of a fold -/
def wordLengths : List (List Char) → List Nat
  | [] => [0]
  | t :: ts => wordLength t :: ts.map fun u => 1 + wordLength u

/-- the lengths of the lines of a value that is written in ASCII -/
def valueLengths (s : List Char) : List Nat :=
  if isAscii s then [s.length] else wordLengths (EncodedWord.pieces s)

theorem utf8Length_word (t : List Char) : Utf8.length (EncodedWord.word t) = wordLength t := by
  rw [Utf8.length_of_ascii (isAscii_iff.1 (EncodedWord.isAscii_word t)), EncodedWord.length_word, wordLength]

theorem lineLengths_words (ts : List (List Char)) :
    lineLengths (join EncodedWord.fold (ts.map EncodedWord.word)) = wordLengths ts := by
  cases ts with
  | nil => rfl
  | cons t ts =>
    have hblank (u : List Char) : Utf8.length (' ' :: EncodedWord.word u) = 1 + wordLength u := by
      rw [← utf8Length_word]
      exact Utf8.length_append [' '] _
    rw [lineLengths, EncodedWord.splitLines_join, List.map_cons, List.map_map, utf8Length_word, wordLengths]
    exact congrArg _ (List.map_congr_left fun u _ => hblank u)

theorem lineLengths_encode {s : List Char} (h : hasBreak s = false) :
    lineLengths (EncodedWord.encode s) = valueLengths s := by
  rw [EncodedWord.encode, valueLengths]
  split
  · next hascii => exact lineLengths_of_plain h hascii
  · exact lineLengths_words _

/-- words end soon behind what stands in front of them -/
theorem le_of_mem_valueLengths {k : Nat} {s : List Char} (h : isAscii s = false) :
    ∀ n ∈ behind k (valueLengths s), n ≤ k + 76 := by
  have hword : ∀ t ∈ EncodedWord.pieces s, wordLength t ≤ 75 := by
    intro t ht
    have := (EncodedWord.isPiece_of_mem_pieces t ht).isWord.length_le
    rwa [EncodedWord.length_word] at this
  rw [valueLengths, h, if_neg Bool.false_ne_true]
  cases hp : EncodedWord.pieces s with
  | nil =>
    rw [wordLengths, behind, List.forall_mem_singleton]
    omega
  | cons t ts =>
    rw [hp, List.forall_mem_cons] at hword
    rw [wordLengths, behind, List.forall_mem_cons, List.forall_mem_map]
    refine ⟨by omega, fun u hu => ?_⟩
    have := hword.2 u hu
    omega

/-! ## Mailboxes -/

/-- how many characters a text of ASCII takes in quotes -/
def quotedLength (s : List Char) : Nat := 2 + s.length + (s.count '"' + s.count '\\')

theorem length_quoted (s : List Char) : (QuotedString.encode s).length = quotedLength s := by
  rw [QuotedString.encode, List.length_cons, List.length_append, length_body, quotedLength, List.length_singleton]
  omega

/-- the lengths of the lines of a mailbox -/
def Mailbox.lengths (m : Mailbox) : List Nat :=
  let address := Utf8.length m.address.text
  if m.name.isEmpty then [address]
  else if isAscii m.name then [quotedLength m.name + 3 + address]
  else linked (wordLengths (EncodedWord.pieces m.name)) [3 + address]

/-- the lengths of the lines of mailboxes with commas between them -/
def listLengths : List Mailbox → List Nat
  | [] => [0]
  | [m] => m.lengths
  | m :: n :: more => linked m.lengths (behind 2 (listLengths (n :: more)))

theorem Mailbox.lineLengths_render {m : Mailbox} (hname : hasBreak m.name = false)
    (haddress : hasBreak m.address.text = false) : lineLengths m.render = m.lengths := by
  have hangle : lineLengths (' ' :: '<' :: (m.address.text ++ ['>'])) = [3 + Utf8.length m.address.text] := by
    have hsplit : ' ' :: '<' :: (m.address.text ++ ['>']) = [' ', '<'] ++ (m.address.text ++ ['>']) := rfl
    have hends : Utf8.length [' ', '<'] = 2 ∧ Utf8.length ['>'] = 1 := by decide
    rw [hsplit, lineLengths_of_hasBreak (hasBreak_append (by decide) (hasBreak_append haddress (by decide))),
      Utf8.length_append, Utf8.length_append, hends.1, hends.2]
    exact congrArg (fun n => [n]) (by omega)
  rw [render, lengths]
  split
  · exact lineLengths_of_hasBreak haddress
  · split
    · next hascii =>
      have hbreak : hasBreak (QuotedString.encode m.name) = false := by
        have := hasBreak_append (hasBreak_body hname) (t := ['"']) (by decide)
        simpa [QuotedString.encode, hasBreak] using this
      have hquoted : isAscii (QuotedString.encode m.name) = true := by
        rw [QuotedString.encode, isAscii_cons, isAscii_append, isAscii_body, hascii]
        rfl
      rw [(folded_of_hasBreak hbreak).lineLengths_append, lineLengths_of_plain hbreak hquoted, hangle, length_quoted,
        linked, behind, Nat.add_assoc]
    · next hbeyond =>
      rw [(folded_encode hname).lineLengths_append, lineLengths_encode hname, hangle, valueLengths, if_neg hbeyond]

theorem lineLengths_renders {values : List String} {ms : List Mailbox}
    (hb : ∀ value ∈ values, hasBreak value.toList = false)
    (hms : List.Forall₂ (fun value m => Mailbox.parse value.toList = .ok m) values ms) :
    lineLengths (join [',', ' '] (ms.map Mailbox.render)) = listLengths ms := by
  induction hms with
  | nil => rfl
  | @cons value m values ms hm hmore ih =>
    rw [List.forall_mem_cons] at hb
    obtain ⟨hname, haddress⟩ := hasBreak_of_parse hb.1 hm
    have hfirst := Mailbox.lineLengths_render hname haddress
    cases ms with
    | nil => exact hfirst
    | cons n ms =>
      have hcomma : Utf8.length [',', ' '] = 2 := by decide
      rw [List.map_cons, List.map_cons, join, List.append_assoc, (folded_render hb.1 hm).lineLengths_append, hfirst,
        lineLengths_append (by decide), hcomma, ← List.map_cons, ih hb.2, listLengths]

/-! ## File names -/

/-- the lengths of the lines of the field that names a file -/
def Disposition.lengths (name : List Char) : List Nat :=
  if isAscii name then [21 + quotedLength (flatten name)]
  else behind 22 (linked (wordLengths (EncodedWord.pieces (QuotedString.body (flatten name))))
    [20 + (Utf8.length name + 2 * (Utf8.encode name).countP fun b => !isAttrByte b)])

theorem Disposition.length_extended (name : List Char) :
    (extended name).length = 7 + (Utf8.length name + 2 * (Utf8.encode name).countP fun b => !isAttrByte b) := by
  have hkind : "utf-8''".toList.length = 7 := by decide
  unfold extended
  rw [List.length_append, Percent.length_encode, Utf8.length_encode, hkind]

/-- whatever the file is called -/
theorem Disposition.lineLengths_encode (name : List Char) : lineLengths (encode name) = lengths name := by
  have hinner := hasBreak_body (hasBreak_flatten name)
  have hlead : "attachment; filename=\"".toList.length = 22 ∧ Utf8.length "attachment; filename=\"".toList = 22 ∧
      "\"; filename*=".toList.length = 13 := by decide
  have hescaped : isAscii (QuotedString.body (flatten name)) = isAscii name := by rw [isAscii_body, isAscii_flatten]
  unfold encode lengths
  split
  · next hascii =>
    rw [← hescaped] at hascii
    rw [lineLengths_of_plain (hasBreak_append (by decide) (hasBreak_append hinner (by decide)))
      (by rw [isAscii_append, isAscii_append, hascii]; rfl)]
    rw [List.length_append, List.length_append, hlead.1, length_body, quotedLength, List.length_singleton]
    exact congrArg (fun n => [n]) (by omega)
  · next hbeyond =>
    have hparameter : lineLengths ("\"; filename*=".toList ++ extended name) =
        [20 + (Utf8.length name + 2 * (Utf8.encode name).countP fun b => !isAttrByte b)] := by
      rw [lineLengths_of_plain (hasBreak_append (by decide) (hasBreak_extended name))
        (by rw [isAscii_append, isAscii_extended]; rfl)]
      rw [List.length_append, hlead.2.2, length_extended, ← Nat.add_assoc]
    rw [← hescaped] at hbeyond
    rw [lineLengths_append (by decide), hlead.2.1, (folded_encode hinner).lineLengths_append, Mail.lineLengths_encode hinner,
      hparameter, valueLengths, if_neg hbeyond]

end SheetPost.Mail
