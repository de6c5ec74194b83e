/-
Paths of URLs. The segments of a path are escaped one by one, and those that mean another segment (`.` and `..`, also
where escapes write the dots) are taken out, the latter with the segment above. What is left is a normal path: it is
brought into the same form again without a change.

Main statements: a path is what is kept of the segments (`pathOfSegments_eq`), a normal path stays as it is
(`normalizePath_of_isNormal`), and a text comes out of its path just if it holds no escape, no character that does not
count and no dot segment (`decode_normalizePath_iff`).
-/
import Mathlib.Algebra.BigOperators.Ring.List
import Mathlib.Algebra.Ring.Nat
import SheetPost.Proofs.Text.Letter
import SheetPost.Proofs.Text.Search
import SheetPost.Proofs.Text.Words
import SheetPost.Proofs.Url.Escape

namespace SheetPost.Url

open SheetPost.Text

/-! ## The front of a path -/

theorem getLast?_closeSegment {done : List (List Char)} (h : done.getLast? = some []) (segment : List Char) :
    (closeSegment done segment).getLast? = some [] := by
  unfold closeSegment
  split
  · split
    · next last above more =>
      split
      · exact h
      · rwa [List.getLast?_cons_cons] at h
    · exact h
  · split
    · exact h
    · cases done with
      | nil => cases h
      | cons a r => rwa [List.getLast?_cons_cons]

theorem head?_closedText {done : List (List Char)} (h : done.getLast? = some []) :
    (closedText done).head? = some '/' := by
  obtain ⟨more, rfl⟩ := List.getLast?_eq_some_iff.1 h
  simp [closedText]

/-- behind an empty first segment, which is never left, every path begins with a slash -/
theorem head?_pathOfSegments {done : List (List Char)} (h : done.getLast? = some []) (segments : List (List Char)) :
    (pathOfSegments done segments).head? = some '/' := by
  fun_induction pathOfSegments done segments with
  | case1 done => exact head?_closedText h
  | case2 done last hlast => exact head?_closedText (getLast?_closeSegment h last)
  | case3 done last hlast => rw [List.head?_append, head?_closedText h, Option.some_or]
  | case4 done segment more hmore ih => exact ih (getLast?_closeSegment h segment)

/-- a path is made of a text that begins with a separator -/
theorem exists_normalizePath (special : Bool) (s : List Char) :
    normalizePath special s = [] ∨ ∃ c r, (c == '/' || (special && c == '\\')) = true ∧
      normalizePath special s =
        pathOfSegments [] ((split (fun c => c == '/' || (special && c == '\\')) (c :: r)).map
          (escape isOutsidePath)) := by
  cases special with
  | false =>
    cases s with
    | nil => exact .inl rfl
    | cons c r =>
      right
      by_cases hc : c = '/'
      · exact ⟨c, r, by simp [hc], by simp [normalizePath, hc]⟩
      · exact ⟨'/', c :: r, rfl, by simp [normalizePath, hc]⟩
  | true =>
    right
    cases s with
    | nil => exact ⟨'/', [], rfl, rfl⟩
    | cons c r =>
      by_cases hc : (c == '/' || c == '\\') = true
      · exact ⟨c, r, by simpa using hc, by simp [normalizePath, hc]⟩
      · exact ⟨'/', c :: r, rfl, by simp [normalizePath, hc]⟩

theorem head?_normalizePath (special : Bool) (s : List Char) :
    normalizePath special s = [] ∨ (normalizePath special s).head? = some '/' := by
  rcases exists_normalizePath special s with h | ⟨c, r, hc, h⟩
  · exact .inl h
  · right
    obtain ⟨piece, pieces, hsplit⟩ := List.exists_cons_of_ne_nil
      (split_ne_nil (fun c => c == '/' || (special && c == '\\')) r)
    rw [h, split, hc, hsplit]
    show (pathOfSegments (closeSegment [] (escape isOutsidePath [])) _).head? = some '/'
    exact head?_pathOfSegments rfl _

/-! ## Dot segments -/

/-- a segment that means another one -/
def isDot (segment : List Char) : Bool := isDoubleDot segment || isSingleDot segment

/-- a dot at the front of a segment, whatever case the escape is written in -/
def LeadsDot (s rest : List Char) : Prop :=
  s.map Char.toLower = '.' :: rest ∨ s.map Char.toLower = '%' :: '2' :: 'e' :: rest

theorem eq_of_toLower_eq {c d : Char} (hd : d.isLower = false) (h : c.toLower = d) : c = d := by
  rcases toLower_cases c with ⟨hupper, hlower⟩ | ⟨-, hc⟩
  · rw [isUpper_iff] at hupper
    rw [← Bool.not_eq_true, isLower_iff, ← h] at hd
    omega
  · exact hc.symm.trans h

theorem digitValue?_of_toLower_eq {c : Char} (h : c.toLower = 'e') : digitValue? 16 c = some 14 := by
  rcases toLower_cases c with ⟨-, hlower⟩ | ⟨-, hc⟩
  · rw [h] at hlower
    have he : 'e'.toNat = 101 := rfl
    have hcap : c = 'E' := Char.toNat_inj.1 (by
      have hE : 'E'.toNat = 69 := rfl
      omega)
    rw [hcap]
    decide
  · rw [← hc, h]
    decide

theorem LeadsDot.decode {s rest : List Char} (h : LeadsDot s rest) :
    ∃ r, r.map Char.toLower = rest ∧ Percent.decode s = 0x2E :: Percent.decode r := by
  rcases h with h | h
  · obtain ⟨c, r, rfl, hc, hr⟩ := List.map_eq_cons_iff.1 h
    obtain rfl := eq_of_toLower_eq rfl hc
    exact ⟨r, hr, rfl⟩
  · obtain ⟨c, r, rfl, hc, h⟩ := List.map_eq_cons_iff.1 h
    obtain ⟨d, r, rfl, hd, h⟩ := List.map_eq_cons_iff.1 h
    obtain ⟨e, r, rfl, he, hr⟩ := List.map_eq_cons_iff.1 h
    obtain rfl := eq_of_toLower_eq rfl hc
    obtain rfl := eq_of_toLower_eq rfl hd
    refine ⟨r, hr, ?_⟩
    have h2 : digitValue? 16 '2' = some 2 := by decide
    rw [Percent.decode, h2, digitValue?_of_toLower_eq he]
    rfl

theorem eq_toList_of_contains {texts : List String} {t : List Char} (h : texts.contains (String.ofList t) = true) :
    ∃ text ∈ texts, t = text.toList := by
  have hmem : String.ofList t ∈ texts := by simpa using h
  exact ⟨String.ofList t, hmem, String.toList_ofList.symm⟩

theorem decode_of_isSingleDot {s : List Char} (h : isSingleDot s = true) : Percent.decode s = [0x2E] := by
  obtain ⟨text, htext, hs⟩ := eq_toList_of_contains h
  have hlead : LeadsDot s [] := by
    simp only [List.mem_cons, List.not_mem_nil, or_false] at htext
    rcases htext with rfl | rfl
    · exact .inl hs
    · exact .inr hs
  obtain ⟨r, hr, hdecode⟩ := hlead.decode
  rw [hdecode, List.map_eq_nil_iff.1 hr]
  rfl

theorem decode_of_isDoubleDot {s : List Char} (h : isDoubleDot s = true) : Percent.decode s = [0x2E, 0x2E] := by
  obtain ⟨text, htext, hs⟩ := eq_toList_of_contains h
  obtain ⟨rest, hfirst, hsecond⟩ : ∃ rest, LeadsDot s rest ∧ ∀ r, r.map Char.toLower = rest → LeadsDot r [] := by
    simp only [List.mem_cons, List.not_mem_nil, or_false] at htext
    rcases htext with rfl | rfl | rfl | rfl
    · exact ⟨".".toList, .inl hs, fun r hr => .inl hr⟩
    · exact ⟨"%2e".toList, .inr hs, fun r hr => .inr hr⟩
    · exact ⟨".".toList, .inr hs, fun r hr => .inl hr⟩
    · exact ⟨"%2e".toList, .inl hs, fun r hr => .inr hr⟩
  obtain ⟨r, hr, hdecode⟩ := hfirst.decode
  obtain ⟨t, ht, hrest⟩ := (hsecond r hr).decode
  rw [hdecode, hrest, List.map_eq_nil_iff.1 ht]
  rfl

theorem decode_ne_nil_of_isDot {s : List Char} (h : isDot s = true) : Percent.decode s ≠ [] := by
  rcases Bool.or_eq_true_iff.1 h with h | h
  · simp [decode_of_isDoubleDot h]
  · simp [decode_of_isSingleDot h]

/-! ## What is kept of the segments -/

/-- the segments that a path is made of: the closed ones, and the last one if it is no dot segment -/
def keep (done : List (List Char)) : List (List Char) → List (List Char)
  | [] => done.reverse ++ [[]]
  | [last] => if isDot last then (closeSegment done last).reverse ++ [[]] else done.reverse ++ [last]
  | segment :: more => keep (closeSegment done segment) more

theorem closedText_append (done : List (List Char)) (last : List Char) :
    closedText done ++ last = join ['/'] (done.reverse ++ [last]) := by
  unfold closedText
  induction done.reverse with
  | nil => rfl
  | cons segment segments ih =>
    rw [List.flatMap_cons, List.append_assoc, ih]
    cases segments <;> simp [join]

/-- **A path is what is kept of the segments**, with slashes between them -/
theorem pathOfSegments_eq (done segments : List (List Char)) :
    pathOfSegments done segments = join ['/'] (keep done segments) := by
  fun_induction pathOfSegments done segments with
  | case1 done =>
    rw [keep, ← closedText_append, List.append_nil]
  | case2 done last hlast =>
    rw [keep, isDot, if_pos hlast, ← closedText_append, List.append_nil]
  | case3 done last hlast =>
    rw [keep, isDot, if_neg hlast, closedText_append]
  | case4 done segment more hmore ih =>
    rw [keep, ih]
    exact hmore

theorem closeSegment_of_not_isDot {segment : List Char} (h : isDot segment = false) (done : List (List Char)) :
    closeSegment done segment = segment :: done := by
  rw [isDot, Bool.or_eq_false_iff] at h
  simp [closeSegment, h]

theorem mem_closeSegment {done : List (List Char)} {segment s : List Char} (h : s ∈ closeSegment done segment) :
    s ∈ done ∨ s = segment ∧ isDot segment = false := by
  unfold closeSegment at h
  split at h
  · split at h
    · split at h
      · exact .inl h
      · exact .inl (List.mem_cons_of_mem _ h)
    · exact .inl h
  · next hdouble =>
    split at h
    · exact .inl h
    · next hsingle =>
      rcases List.mem_cons.1 h with rfl | h
      · exact .inr ⟨rfl, Bool.or_eq_false_iff.2 ⟨by simpa using hdouble, by simpa using hsingle⟩⟩
      · exact .inl h

theorem mem_keep {done segments : List (List Char)} {s : List Char} (h : s ∈ keep done segments) :
    s ∈ done ∨ s = [] ∨ s ∈ segments ∧ isDot s = false := by
  fun_induction keep done segments with
  | case1 done => simpa using h
  | case2 done last hlast =>
    rcases List.mem_append.1 h with h | h
    · rcases mem_closeSegment (List.mem_reverse.1 h) with h | ⟨rfl, h⟩
      · exact .inl h
      · rw [hlast] at h
        cases h
    · exact .inr (.inl (List.mem_singleton.1 h))
  | case3 done last hlast =>
    rcases List.mem_append.1 h with h | h
    · exact .inl (List.mem_reverse.1 h)
    · obtain rfl := List.mem_singleton.1 h
      exact .inr (.inr ⟨h, by simpa using hlast⟩)
  | case4 done segment more hmore ih =>
    rcases ih h with h | h | ⟨h, hdot⟩
    · rcases mem_closeSegment h with h | ⟨rfl, hdot⟩
      · exact .inl h
      · exact .inr (.inr ⟨List.mem_cons_self, hdot⟩)
    · exact .inr (.inl h)
    · exact .inr (.inr ⟨List.mem_cons_of_mem _ h, hdot⟩)

theorem keep_ne_nil (done segments : List (List Char)) : keep done segments ≠ [] := by
  fun_induction keep done segments with
  | case1 done => simp
  | case2 done last hlast => simp
  | case3 done last hlast => simp
  | case4 done segment more hmore ih => exact ih

/-- without dot segments, all of them are kept -/
theorem keep_of_not_isDot {done segments : List (List Char)} (hne : segments ≠ [])
    (h : ∀ s ∈ segments, isDot s = false) : keep done segments = done.reverse ++ segments := by
  fun_induction keep done segments with
  | case1 done => exact absurd rfl hne
  | case2 done last hlast =>
    rw [h last List.mem_cons_self] at hlast
    cases hlast
  | case3 done last hlast => rfl
  | case4 done segment more hmore ih =>
    have hclose := closeSegment_of_not_isDot (h segment List.mem_cons_self) done
    rw [ih (fun hnil => hmore hnil) fun s hs => h s (List.mem_cons_of_mem _ hs), hclose]
    simp

/-! ## How much is kept -/

/-- the bytes of segments, with one more for each -/
def weight (segments : List (List Char)) : Nat := (segments.map fun s => (Percent.decode s).length + 1).sum

theorem weight_cons (s : List Char) (segments : List (List Char)) :
    weight (s :: segments) = (Percent.decode s).length + 1 + weight segments := rfl

theorem weight_append (segments more : List (List Char)) : weight (segments ++ more) = weight segments + weight more := by
  simp [weight]

theorem weight_reverse (segments : List (List Char)) : weight segments.reverse = weight segments := by
  simp [weight, List.sum_reverse]

theorem weight_closeSegment_le {segment : List Char} (h : isDot segment = true) (done : List (List Char)) :
    weight (closeSegment done segment) ≤ weight done := by
  unfold closeSegment
  split
  · split
    · split
      · exact Nat.le_refl _
      · exact Nat.le_add_left _ _
    · exact Nat.le_refl _
  · next hdouble =>
    have hsingle : isSingleDot segment = true := by simpa [isDot, hdouble] using h
    rw [if_pos hsingle]

/-- every dot segment takes something away -/
theorem weight_keep_le {segments : List (List Char)} (hne : segments ≠ []) (done : List (List Char)) :
    weight (keep done segments) + segments.countP isDot ≤ weight done + weight segments := by
  fun_induction keep done segments with
  | case1 done => exact absurd rfl hne
  | case2 done last hlast =>
    have hclose := weight_closeSegment_le hlast done
    have hpos := List.length_pos_iff.2 (decode_ne_nil_of_isDot hlast)
    rw [weight_append, weight_reverse, weight_cons, weight_cons, List.countP_cons_of_pos hlast]
    simp only [Percent.decode, List.length_nil, List.countP_nil]
    omega
  | case3 done last hlast =>
    rw [weight_append, weight_reverse, List.countP_cons_of_neg (by simpa using hlast), List.countP_nil]
    exact Nat.le_refl _
  | case4 done segment more hmore ih =>
    have ih := ih fun hnil => hmore hnil
    rw [weight_cons]
    cases hdot : isDot segment with
    | true =>
      have hclose := weight_closeSegment_le hdot done
      rw [List.countP_cons_of_pos hdot]
      omega
    | false =>
      rw [closeSegment_of_not_isDot hdot, weight_cons] at ih
      rw [closeSegment_of_not_isDot hdot, List.countP_cons_of_neg (by simp [hdot])]
      omega

/-- between the segments of a text there is one slash less than there are segments -/
theorem length_decode_join {segments : List (List Char)} (hne : segments ≠ []) :
    (Percent.decode (join ['/'] segments)).length + 1 = weight segments := by
  induction segments with
  | nil => exact absurd rfl hne
  | cons s segments ih =>
    cases segments with
    | nil => rfl
    | cons t segments =>
      have hj : join ['/'] (s :: t :: segments) = s ++ '/' :: join ['/'] (t :: segments) := by simp [join]
      rw [hj, Percent.decode_append (by decide), Percent.decode_cons (by decide), weight_cons, ← ih (by simp),
        List.length_append, List.length_cons]
      omega

/-! ## Normal paths -/

/-- the segments of a text, escaped -/
def escapedSegments (s : List Char) : List (List Char) := (split (· == '/') s).map (escape isOutsidePath)

theorem escape_join (segments : List (List Char)) :
    join ['/'] (segments.map (escape isOutsidePath)) = escape isOutsidePath (join ['/'] segments) := by
  induction segments with
  | nil => rfl
  | cons s segments ih =>
    cases segments with
    | nil => rfl
    | cons t segments =>
      have hslash : escape isOutsidePath ['/'] = ['/'] := by decide
      rw [List.map_cons] at ih
      rw [List.map_cons, List.map_cons, join, join, ih, escape_append, escape_append, hslash]

theorem join_escapedSegments (s : List Char) : join ['/'] (escapedSegments s) = escape isOutsidePath s := by
  rw [escapedSegments, escape_join, join_split]

theorem escapedSegments_ne_nil (s : List Char) : escapedSegments s ≠ [] := by
  simp [escapedSegments, split_ne_nil]

theorem slash_not_mem_escapedSegments {s e : List Char} (h : e ∈ escapedSegments s) : '/' ∉ e := by
  obtain ⟨segment, hs, rfl⟩ := List.mem_map.1 h
  intro hslash
  have := not_mem_of_mem_split hs '/' (isEscapeSet_path.mem_of_mem_escape hslash (by decide) (by decide)).1
  cases this

/-- a path is what is kept of the segments of its text -/
theorem normalizePath_eq (r : List Char) :
    normalizePath false ('/' :: r) = join ['/'] (keep [] (escapedSegments ('/' :: r))) := by
  rw [← pathOfSegments_eq]
  simp [normalizePath, escapedSegments]

/-- a path in the form that paths are brought into -/
structure IsNormal (path : List Char) : Prop where
  front : path = [] ∨ path.head? = some '/'
  kept : Percent.IsKept (fun b => !isOutsidePath b) path
  plain : ∀ segment ∈ split (· == '/') path, isDot segment = false

/-- without dot segments, a text is only escaped -/
theorem normalizePath_of_not_isDot {r : List Char} (h : ∀ e ∈ escapedSegments ('/' :: r), isDot e = false) :
    normalizePath false ('/' :: r) = escape isOutsidePath ('/' :: r) := by
  rw [normalizePath_eq, keep_of_not_isDot (escapedSegments_ne_nil _) h, List.reverse_nil, List.nil_append,
    join_escapedSegments]

/-- **A normal path stays as it is** -/
theorem normalizePath_of_isNormal {path : List Char} (h : IsNormal path) : normalizePath false path = path := by
  rcases h.front with rfl | hfront
  · rfl
  · obtain ⟨r, rfl⟩ : ∃ r, path = '/' :: r := by
      cases path with
      | nil => cases hfront
      | cons c r =>
        cases hfront
        exact ⟨r, rfl⟩
    have hplain : ∀ e ∈ escapedSegments ('/' :: r), isDot e = false := by
      intro e he
      obtain ⟨segment, hs, rfl⟩ := List.mem_map.1 he
      rw [escape_of_isKept fun c hc => h.kept c ((infix_of_mem_split hs).subset hc)]
      exact h.plain segment hs
    rw [normalizePath_of_not_isDot hplain, escape_of_isKept h.kept]

/-- an empty path, or one from a text that begins with a slash -/
theorem normalizePath_cases (s : List Char) :
    normalizePath false s = [] ∨ ∃ r, normalizePath false s = normalizePath false ('/' :: r) := by
  cases s with
  | nil => exact .inl rfl
  | cons c r =>
    by_cases hc : c = '/'
    · exact .inr ⟨r, by rw [hc]⟩
    · exact .inr ⟨c :: r, by simp [normalizePath, hc]⟩

/-- **A path is normal once it has been brought into form** -/
theorem isNormal_normalizePath (s : List Char) : IsNormal (normalizePath false s) := by
  rcases normalizePath_cases s with h | ⟨r, h⟩
  · rw [h]
    refine ⟨.inl rfl, List.forall_mem_nil _, fun segment hs => ?_⟩
    rw [List.mem_singleton.1 hs]
    decide
  · refine ⟨head?_normalizePath false s, ?_, ?_⟩
    · rw [h, normalizePath_eq]
      intro c hc
      rcases mem_join hc with hc | ⟨e, he, hc⟩
      · rw [List.mem_singleton.1 hc]
        decide
      · rcases mem_keep he with he | rfl | ⟨he, -⟩
        · cases he
        · cases hc
        · obtain ⟨segment, -, rfl⟩ := List.mem_map.1 he
          exact isEscapeSet_path.isKept_escape segment c hc
    · rw [h, normalizePath_eq, split_join (keep_ne_nil _ _)]
      · intro e he
        rcases mem_keep he with he | rfl | ⟨-, hdot⟩
        · cases he
        · decide
        · exact hdot
      · intro e he
        rcases mem_keep he with he | rfl | ⟨he, -⟩
        · cases he
        · exact List.not_mem_nil
        · exact slash_not_mem_escapedSegments he

/-! ## Texts that come out of their path -/

/-- the text holds no escape, no character that does not count and no dot segment -/
structure IsPlainPath (s : List Char) : Prop where
  escapes : ¬ Percent.HoldsEscape s
  ignored : ∀ c ∈ s, isIgnored c = false
  dots : ∀ segment ∈ split (· == '/') s, segment ≠ ['.'] ∧ segment ≠ ['.', '.']

/-- without escapes, only dots make a dot segment -/
theorem isDot_escape_iff {s : List Char} (h : ¬ Percent.HoldsEscape s) :
    isDot (escape isOutsidePath s) = true ↔ s = ['.'] ∨ s = ['.', '.'] := by
  constructor
  · intro hdot
    have hsame : Percent.decode (escape isOutsidePath s) = Utf8.encode s := by
      rw [isEscapeSet_path.decode_escape, (Percent.unescape_eq_encode_iff s).2 h]
    rcases Bool.or_eq_true_iff.1 hdot with hdot | hdot
    · right
      have htwo : Utf8.encode ['.', '.'] = [0x2E, 0x2E] := by decide
      exact Utf8.encode_inj (by rw [← hsame, decode_of_isDoubleDot hdot, htwo])
    · left
      have hone : Utf8.encode ['.'] = [0x2E] := by decide
      exact Utf8.encode_inj (by rw [← hsame, decode_of_isSingleDot hdot, hone])
  · rintro (rfl | rfl)
    · decide
    · decide

theorem length_encode_filter_le (p : Char → Bool) (s : List Char) :
    (Utf8.encode (s.filter p)).length ≤ (Utf8.encode s).length := by
  induction s with
  | nil => exact Nat.le_refl _
  | cons c s ih =>
    rw [Utf8.encode_cons, List.length_append, List.filter_cons]
    split
    · rw [Utf8.encode_cons, List.length_append]
      omega
    · omega

/-- leaving out a character leaves out a byte -/
theorem filter_eq_self_of_length {p : Char → Bool} {s : List Char}
    (h : (Utf8.encode s).length ≤ (Utf8.encode (s.filter p)).length) : ∀ c ∈ s, p c = true := by
  induction s with
  | nil => exact List.forall_mem_nil _
  | cons c s ih =>
    have hrest := length_encode_filter_le p s
    have hsize := c.utf8Size_pos
    rw [Utf8.encode_cons, List.length_append, String.length_utf8EncodeChar, List.filter_cons] at h
    split at h
    · next hc =>
      rw [Utf8.encode_cons, List.length_append, String.length_utf8EncodeChar] at h
      exact List.forall_mem_cons.2 ⟨hc, ih (by omega)⟩
    · omega

/-- the path of a text has no more bytes than the text, and fewer for each dot segment -/
theorem length_decode_normalizePath_le (r : List Char) :
    (Percent.decode (normalizePath false ('/' :: r))).length + (escapedSegments ('/' :: r)).countP isDot ≤
      (Utf8.encode ('/' :: r)).length := by
  have hkeep := weight_keep_le (escapedSegments_ne_nil ('/' :: r)) []
  rw [← length_decode_join (keep_ne_nil _ _), ← normalizePath_eq, ← length_decode_join (escapedSegments_ne_nil _),
    join_escapedSegments, isEscapeSet_path.decode_escape] at hkeep
  have hle := Percent.length_unescape_le ('/' :: r)
  have hnil : weight [] = 0 := rfl
  omega

/-- **A text comes out of its path just if it is plain** -/
theorem decode_normalizePath_iff (r : List Char) :
    Percent.decode (normalizePath false (('/' :: r).filter fun c => !isIgnored c)) = Utf8.encode ('/' :: r) ↔
      IsPlainPath ('/' :: r) := by
  have hslash : (('/' :: r).filter fun c => !isIgnored c) = '/' :: r.filter fun c => !isIgnored c := rfl
  constructor
  · intro h
    have hlength := congrArg List.length h
    have hle := length_decode_normalizePath_le (r.filter fun c => !isIgnored c)
    rw [← hslash] at hle
    -- nothing can be left out, since nothing is put in
    have hignored : ∀ c ∈ '/' :: r, (!isIgnored c) = true := filter_eq_self_of_length (by omega)
    have hall := List.filter_eq_self.2 hignored
    rw [hall] at h hle hlength
    have hdots : ∀ e ∈ escapedSegments ('/' :: r), isDot e = false := by
      have hcount : (escapedSegments ('/' :: r)).countP isDot = 0 := by omega
      simpa using List.countP_eq_zero.1 hcount
    rw [normalizePath_of_not_isDot hdots, isEscapeSet_path.decode_escape, Percent.unescape_eq_encode_iff] at h
    refine ⟨h, by simpa using hignored, fun segment hs => ?_⟩
    have hdot := hdots _ (List.mem_map_of_mem hs)
    rw [← Bool.not_eq_true, isDot_escape_iff fun hs' => h (hs'.of_infix (infix_of_mem_split hs)), not_or] at hdot
    exact hdot
  · intro h
    have hall : (('/' :: r).filter fun c => !isIgnored c) = '/' :: r :=
      List.filter_eq_self.2 (by simpa using h.ignored)
    have hdots : ∀ e ∈ escapedSegments ('/' :: r), isDot e = false := by
      intro e he
      obtain ⟨segment, hs, rfl⟩ := List.mem_map.1 he
      rw [← Bool.not_eq_true, isDot_escape_iff fun hs' => h.escapes (hs'.of_infix (infix_of_mem_split hs)), not_or]
      exact h.dots segment hs
    rw [hall, normalizePath_of_not_isDot hdots, isEscapeSet_path.decode_escape,
      (Percent.unescape_eq_encode_iff _).2 h.escapes]

end SheetPost.Url
