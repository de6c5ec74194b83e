/-
Whole expressions: six fields or seven, one behind the other. A text is read just if it falls into pieces each of which
is one field, where no number and no name goes on from one piece to the next; nothing else need stand between them.
Where it is written as tokens with blanks between them and each token is one field, the tokens are what is read.

Main statements: `exists_parse?_iff` and `exists_parse?_of_tokens`.
-/
import Mathlib.Data.List.Chain
import Mathlib.Data.List.Forall2
import SheetPost.Proofs.Cron.Grammar
import SheetPost.Proofs.Text.Words

namespace SheetPost.Cron

open SheetPost.Text

/-- the fields in the order in which they stand -/
def units : List Unit := [.second, .minute, .hour, .dayOfMonth, .month, .dayOfWeek, .year]

/-- the values of a field -/
def Fields.values (f : Fields) : Unit → List Nat
  | .second => f.seconds
  | .minute => f.minutes
  | .hour => f.hours
  | .dayOfMonth => f.daysOfMonth
  | .month => f.months
  | .dayOfWeek => f.daysOfWeek
  | .year => f.years

/-- fields with given values -/
def Fields.ofValues (val : Unit → List Nat) : Fields :=
  ⟨val .second, val .minute, val .hour, val .dayOfMonth, val .month, val .dayOfWeek, val .year⟩

@[simp] theorem Fields.values_ofValues (val : Unit → List Nat) : (ofValues val).values = val := by
  funext u
  cases u <;> rfl

namespace Grammar

/-! ## Fields one behind the other -/

/-- the values of several fields, read one behind the other -/
def readAll? : List Unit → List Char → Option (List (List Nat) × List Char)
  | [], s => some ([], s)
  | u :: us, s => (field? u s).bind fun (values, s) => (readAll? us s).map fun (rest, s) => (values :: rest, s)

theorem readAll?_cons {u : Unit} {us : List Unit} {s r : List Char} {val : Unit → List Nat} :
    readAll? (u :: us) s = some ((u :: us).map val, r) ↔
      ∃ s', field? u s = some (val u, s') ∧ readAll? us s' = some (us.map val, r) := by
  simp only [readAll?, Option.bind_eq_some_iff, Option.map_eq_some_iff, List.map_cons]
  constructor
  · rintro ⟨⟨values, s'⟩, hu, ⟨rest, s''⟩, hus, he⟩
    cases he
    exact ⟨s', hu, hus⟩
  · rintro ⟨s', hu, hus⟩
    exact ⟨_, hu, _, hus, rfl⟩

/-- an expression is six fields with every year, or seven -/
theorem fields?_eq_some_iff {s : List Char} {f : Fields} :
    fields? s = some f ↔
      (readAll? (units.take 6) s = some ((units.take 6).map f.values, []) ∧ f.years = Unit.year.all) ∨
        readAll? units s = some (units.map f.values, []) := by
  constructor
  · intro h
    simp only [fields?, Option.bind_eq_bind, Option.bind_eq_some_iff] at h
    obtain ⟨⟨seconds, s1⟩, h1, ⟨minutes, s2⟩, h2, ⟨hours, s3⟩, h3, ⟨daysOfMonth, s4⟩, h4, ⟨months, s5⟩, h5,
      ⟨daysOfWeek, s6⟩, h6, h⟩ := h
    cases h7 : field? .year s6 with
    | none =>
      simp only [h7, Option.getD_none, List.isEmpty_iff] at h
      split at h
      · next hs =>
        cases h
        subst hs
        left
        simp [units, readAll?, Fields.values, h1, h2, h3, h4, h5, h6]
      · cases h
    | some years =>
      simp only [h7, Option.getD_some, List.isEmpty_iff] at h
      split at h
      · next hs =>
        cases h
        right
        have hyears : years = (years.1, []) := Prod.ext rfl hs
        rw [hyears] at h7
        simp [units, readAll?, Fields.values, h1, h2, h3, h4, h5, h6, h7]
      · cases h
  · intro h
    rcases h with ⟨h, hyears⟩ | h
    · simp only [units, List.take, readAll?_cons] at h
      obtain ⟨s1, h1, s2, h2, s3, h3, s4, h4, s5, h5, s6, h6, h⟩ := h
      cases h
      have h7 : field? .year [] = none := rfl
      simp [fields?, h1, h2, h3, h4, h5, h6, h7, ← hyears, Fields.values]
    · simp only [units, readAll?_cons] at h
      obtain ⟨s1, h1, s2, h2, s3, h3, s4, h4, s5, h5, s6, h6, s7, h7, h⟩ := h
      cases h
      simp [fields?, h1, h2, h3, h4, h5, h6, h7, Fields.values]

theorem readAll?_skipSpace (us : List Unit) (hus : us ≠ []) (s : List Char) :
    readAll? us (skipSpace s) = readAll? us s := by
  obtain ⟨u, us, rfl⟩ := List.exists_cons_of_ne_nil hus
  rw [readAll?, readAll?, (reads_field u).skips]

/-- a character that a field can begin with goes on with no field in front -/
theorem ends_of_starts {q r : List Char} (hapart : Apart q r) (hr : ∀ c, first? r = some c → starts c = true) :
    Ends ['-', '/', ','] q r := by
  refine ⟨hapart, fun c hc hmem => ?_⟩
  have hstarts := hr c hc
  simp only [List.mem_cons, List.not_mem_nil, or_false] at hmem
  rcases hmem with rfl | rfl | rfl <;> cases hstarts

/-- what pieces that are fields begin with -/
theorem starts_of_first?_flatten {us : List Unit} {pieces : List (List Char)}
    (h : List.Forall₂ (fun u q => ∃ values, IsField u q values) us pieces) {c : Char}
    (hc : first? pieces.flatten = some c) : starts c = true := by
  cases h with
  | nil => cases hc
  | @cons u q us pieces hq _ =>
    obtain ⟨values, hq⟩ := hq
    exact hq.starts_of_first? hc

/-- the front of the joined pieces is the front of the first -/
theorem apart_flatten_iff {us : List Unit} {pieces : List (List Char)}
    (h : List.Forall₂ (fun u q => ∃ values, IsField u q values) us pieces) {p : List Char} :
    Apart p pieces.flatten ↔ ∀ q ∈ pieces.head?, Apart p q := by
  cases h with
  | nil => simpa using apart_nil p
  | cons hq _ =>
    obtain ⟨values, hq⟩ := hq
    rw [List.flatten_cons, apart_append_right ((reads_field _).ne_nil hq)]
    simp

/-- **What is read is one piece for each field**, and no number and no name goes on from one piece to the next -/
theorem readAll?_eq_some_iff {val : Unit → List Nat} {us : List Unit} {s : List Char} :
    readAll? us s = some (us.map val, []) ↔
      ∃ pieces, List.Forall₂ (fun u q => IsField u q (val u)) us pieces ∧ pieces.IsChain Apart ∧
        s = pieces.flatten := by
  have hfields {us pieces} (h : List.Forall₂ (fun u q => IsField u q (val u)) us pieces) :
      List.Forall₂ (fun u q => ∃ values, IsField u q values) us pieces := h.imp fun u _ hq => ⟨val u, hq⟩
  constructor
  · intro h
    induction us generalizing s with
    | nil =>
      cases h
      exact ⟨[], .nil, .nil, rfl⟩
    | cons u us ih =>
      obtain ⟨s', hu, hus⟩ := readAll?_cons.1 h
      obtain ⟨q, hq, rfl, -, hapart⟩ := (reads_field u).sound hu
      obtain ⟨pieces, hpieces, hchain, rfl⟩ := ih hus
      exact ⟨q :: pieces, .cons hq hpieces,
        List.isChain_cons.2 ⟨(apart_flatten_iff (hfields hpieces)).1 hapart, hchain⟩, rfl⟩
  · rintro ⟨pieces, hpieces, hchain, rfl⟩
    induction hpieces with
    | nil => rfl
    | @cons u q us pieces hq hpieces ih =>
      obtain ⟨hapart, hchain⟩ := List.isChain_cons.1 hchain
      have hends : Ends ['-', '/', ','] q pieces.flatten :=
        ends_of_starts ((apart_flatten_iff (hfields hpieces)).2 hapart)
          fun c => starts_of_first?_flatten (hfields hpieces)
      refine readAll?_cons.2 ⟨skipSpace pieces.flatten, (reads_field u).complete hq hends, ?_⟩
      by_cases hus : us = []
      · subst hus
        cases hpieces
        rfl
      · rw [readAll?_skipSpace us hus, ih hchain]

/-- values of fields may be taken for those of their kinds, where no kind comes twice -/
theorem exists_val {us : List Unit} {ts : List (List Char)} (hus : us.Nodup)
    (hts : List.Forall₂ (fun u t => ∃ values, IsField u t values) us ts) :
    ∃ val : Unit → List Nat, List.Forall₂ (fun u t => IsField u t (val u)) us ts ∧ ∀ u ∉ us, val u = u.all := by
  induction hts with
  | nil => exact ⟨Unit.all, .nil, fun _ _ => rfl⟩
  | @cons u t us ts ht hts ih =>
    obtain ⟨values, ht⟩ := ht
    obtain ⟨hu, hus⟩ := List.nodup_cons.1 hus
    obtain ⟨val, hval, hall⟩ := ih hus
    have hother : ∀ u' ∈ us, Function.update val u values u' = val u' := by
      intro u' hu'
      exact Function.update_of_ne (by rintro rfl; exact hu hu') _ _
    refine ⟨Function.update val u values, .cons (by rwa [Function.update_self]) ?_, fun u' hu' => ?_⟩
    · refine ((List.forall₂_and_left us ts).2 ⟨hother, hval⟩).imp fun u' t' h => ?_
      rw [h.1]
      exact h.2
    · obtain ⟨hne, hu'⟩ := not_or.1 (mt List.mem_cons.2 hu')
      rw [Function.update_of_ne hne, hall u' hu']

/-- the text is fields of these kinds one behind the other, and no number and no name goes on from one to the next -/
def AreFields (us : List Unit) (s : List Char) : Prop :=
  ∃ pieces, List.Forall₂ (fun u q => ∃ values, IsField u q values) us pieces ∧ pieces.IsChain Apart ∧ s = pieces.flatten

theorem areFields_iff {us : List Unit} (hus : us.Nodup) {s : List Char} :
    AreFields us s ↔ ∃ val : Unit → List Nat, readAll? us s = some (us.map val, []) := by
  constructor
  · rintro ⟨pieces, hpieces, hchain, rfl⟩
    obtain ⟨val, hval, -⟩ := exists_val hus hpieces
    exact ⟨val, readAll?_eq_some_iff.2 ⟨pieces, hval, hchain, rfl⟩⟩
  · rintro ⟨val, h⟩
    obtain ⟨pieces, hpieces, hchain, rfl⟩ := readAll?_eq_some_iff.1 h
    exact ⟨pieces, hpieces.imp fun u _ hq => ⟨val u, hq⟩, hchain, rfl⟩

/-! ## Blanks of a text that is read -/

/-- every blank in the text is one of the grammar -/
def PlainBlanks (s : List Char) : Prop := ∀ c ∈ s, isBlank c = true → isSpace c = true

theorem PlainBlanks.append {s t : List Char} (hs : PlainBlanks s) (ht : PlainBlanks t) : PlainBlanks (s ++ t) :=
  fun c hc => (List.mem_append.1 hc).elim (hs c) (ht c)

theorem not_isBlank_of_isAlphanum {c : Char} (h : c.isAlphanum = true) : isBlank c = false := by
  rw [isAlphanum_iff, isAlpha_iff, isUpper_iff, isLower_iff, isDigit_iff] at h
  simp only [isBlank, Bool.or_eq_false_iff, Bool.and_eq_false_iff, decide_eq_false_iff_not, beq_eq_false_iff_ne]
  omega

theorem Padded.plainBlanks {t q : List Char} (h : Padded t q) (ht : PlainBlanks t) : PlainBlanks q := by
  obtain ⟨b, b', hb, hb', rfl⟩ := h
  exact .append (fun c hc _ => hb c hc) (ht.append fun c hc _ => hb' c hc)

theorem IsRun.plainBlanks {p : Char → Bool} (hp : ∀ c, p c = true → c.isAlphanum = true) {t q : List Char}
    (h : IsRun p t q) : PlainBlanks q := by
  refine h.padded.plainBlanks fun c hc hblank => ?_
  rw [not_isBlank_of_isAlphanum (hp c (h.all c hc))] at hblank
  cases hblank

theorem IsSign.plainBlanks {x : Char} {q : List Char} (h : IsSign x q) (hx : isBlank x = false) : PlainBlanks q := by
  refine Padded.plainBlanks h fun c hc hblank => ?_
  cases List.mem_singleton.1 hc
  rw [hx] at hblank
  cases hblank

theorem IsNumber.plainBlanks {n : Nat} {q : List Char} (h : IsNumber n q) : PlainBlanks q := by
  obtain ⟨t, ht, -⟩ := h
  exact ht.plainBlanks fun _ => isAlphanum_of_isDigit

theorem IsName.plainBlanks {t q : List Char} (h : IsName t q) : PlainBlanks q :=
  IsRun.plainBlanks (fun _ => isAlphanum_of_isAlpha) h

theorem IsPair.plainBlanks {α : Type} {form : α → List Char → Prop} (hform : ∀ {a q}, form a q → PlainBlanks q)
    {x : α × α} {w : List Char} (h : IsPair form x w) : PlainBlanks w := by
  obtain ⟨p, q, r, hp, hq, hr, rfl⟩ := h
  exact (hform hp).append ((hq.plainBlanks (by decide)).append (hform hr))

theorem IsSpan.plainBlanks {s : Span} {q : List Char} (h : IsSpan s q) : PlainBlanks q := by
  cases h with
  | all hq => exact hq.plainBlanks (by decide)
  | range hq => exact hq.plainBlanks fun h => h.plainBlanks
  | point hq => exact hq.plainBlanks
  | names hq => exact hq.plainBlanks fun h => h.plainBlanks

theorem IsWide.plainBlanks {any : Bool} {s : Span} {q : List Char} (h : IsWide any s q) : PlainBlanks q := by
  cases h with
  | any _ hq => exact hq.plainBlanks (by decide)
  | span hq => exact hq.plainBlanks

theorem IsItem.plainBlanks {any : Bool} {x : Item} {q : List Char} (h : IsItem any x q) : PlainBlanks q := by
  cases h with
  | stepped hp hq hr => exact hp.plainBlanks.append ((hq.plainBlanks (by decide)).append hr.plainBlanks)
  | span hq => exact hq.plainBlanks
  | name hq => exact hq.plainBlanks

theorem IsItems.plainBlanks {any : Bool} {xs : List Item} {q : List Char} (h : IsItems any xs q) : PlainBlanks q := by
  induction h with
  | one hx => exact hx.plainBlanks
  | @more x xs p q hx _ ih =>
    refine hx.plainBlanks.append fun c hc hblank => ?_
    rcases List.mem_cons.1 hc with rfl | hc
    · cases hblank
    · exact ih c hc hblank

theorem plainBlanks_flatten {val : Unit → List Nat} {us : List Unit} {pieces : List (List Char)}
    (h : List.Forall₂ (fun u q => IsField u q (val u)) us pieces) : PlainBlanks pieces.flatten := by
  induction h with
  | nil => exact fun c hc => by cases hc
  | cons hq _ ih =>
    obtain ⟨items, hitems, -⟩ := hq
    exact hitems.plainBlanks.append ih

/-! ## Tokens -/

/-- the first character of tokens that are fields -/
theorem starts_of_first? {us : List Unit} {ts : List (List Char)} {s : List Char} {val : Unit → List Nat}
    (hts : List.Forall₂ (fun u t => IsField u t (val u)) us ts) (hs : Spaced isSpace ts s) {c : Char}
    (hc : first? s = some c) : starts c = true := by
  cases hs with
  | nil hb =>
    have hblank := skipSpace_blanks hb []
    rw [List.append_nil] at hblank
    rw [first?, hblank] at hc
    cases hc
  | @word b t ts s hb _ _ =>
    obtain ⟨u, us, ht, -, -⟩ := List.forall₂_cons_right_iff.1 hts
    rw [first?, skipSpace_blanks hb, ← first?] at hc
    exact ht.starts_of_first? hc

/-- tokens that are fields are read one by one -/
theorem readAll?_of_tokens {us : List Unit} {ts : List (List Char)} {s : List Char} {val : Unit → List Nat}
    (hts : List.Forall₂ (fun u t => IsField u t (val u)) us ts) (hs : Spaced isSpace ts s) :
    readAll? us (skipSpace s) = some (us.map val, []) := by
  induction hs generalizing us with
  | @nil b hb =>
    cases hts
    have hblank := skipSpace_blanks hb []
    rw [List.append_nil] at hblank
    rw [hblank]
    rfl
  | @word b t ts s hb hhead hs ih =>
    obtain ⟨u, us, ht, hrest, rfl⟩ := List.forall₂_cons_right_iff.1 hts
    -- what stands behind the token goes on with none of the signs, since it begins with a blank and then a field
    have hends : Ends ['-', '/', ','] t s :=
      ends_of_starts (apart_of_head fun c hc => not_isAlphanum_of_isSpace (hhead c hc))
        fun c => starts_of_first? hrest hs
    rw [skipSpace_blanks hb, readAll?_cons]
    refine ⟨skipSpace s, ?_, ih hrest⟩
    rw [(reads_field u).skips]
    exact (reads_field u).complete ht hends

/-- a token that is a field is read by itself, where the rest begins with what a field can begin with -/
theorem areFields_token_iff {u : Unit} {us : List Unit} (hus : (u :: us).Nodup) (hne : us ≠ []) {t s : List Char}
    {values : List Nat} (ht : IsField u t values) (hs : ∀ c, first? s = some c → starts c = true) :
    AreFields (u :: us) (t ++ ' ' :: s) ↔ AreFields us s := by
  have hends : Ends ['-', '/', ','] t (' ' :: s) :=
    ends_of_starts (apart_of_head fun c hc => by cases hc; rfl) hs
  have hread : field? u (t ++ ' ' :: s) = some (values, skipSpace s) := (reads_field u).complete ht hends
  obtain ⟨hu, hus'⟩ := List.nodup_cons.1 hus
  rw [areFields_iff hus, areFields_iff hus', ← readAll?_skipSpace us hne s]
  constructor
  · rintro ⟨val, h⟩
    obtain ⟨s', hu, h⟩ := readAll?_cons.1 h
    rw [hread] at hu
    cases hu
    exact ⟨val, h⟩
  · rintro ⟨val, h⟩
    have hother : ∀ u' ∈ us, Function.update val u values u' = val u' := by
      intro u' hu'
      exact Function.update_of_ne (by rintro rfl; exact hu hu') _ _
    refine ⟨Function.update val u values, readAll?_cons.2 ⟨skipSpace s, ?_, ?_⟩⟩
    · rwa [Function.update_self]
    · rwa [List.map_congr_left hother]

theorem join_token (t : List Char) (ts : List (List Char)) (s : List Char) :
    join [' '] (t :: ts ++ [s]) = t ++ ' ' :: join [' '] (ts ++ [s]) := by
  cases ts <;> simp [join]

/-- so are several tokens, one behind the other -/
theorem areFields_join_iff {us us' : List Unit} (hus : (us ++ us').Nodup) (hne : us' ≠ []) {ts : List (List Char)}
    {s : List Char} (hts : List.Forall₂ (fun u t => ∃ values, IsField u t values) us ts)
    (hs : ∀ c, first? s = some c → starts c = true) :
    AreFields (us ++ us') (join [' '] (ts ++ [s])) ↔ AreFields us' s := by
  induction hts with
  | nil => rfl
  | @cons u t us ts ht hts ih =>
    obtain ⟨values, ht⟩ := ht
    have hstarts : ∀ c, first? (join [' '] (ts ++ [s])) = some c → starts c = true := by
      intro c hc
      cases hts with
      | nil => exact hs c hc
      | @cons u' t' us ts ht' _ =>
        obtain ⟨values', ht'⟩ := ht'
        rw [join_token] at hc
        exact ht'.starts_of_first? hc
    rw [join_token]
    exact (areFields_token_iff hus (by simp [hne]) ht hstarts).trans (ih (List.nodup_cons.1 hus).2)

end Grammar

open Grammar

/-- **An expression is read just if it is six fields or seven** -/
theorem exists_parse?_iff {s : List Char} :
    (∃ f, Fields.parse? s = some f) ↔ AreFields (units.take 6) s ∨ AreFields units s := by
  constructor
  · rintro ⟨f, h⟩
    refine (fields?_eq_some_iff.1 h).imp (fun h => ?_) fun h => ?_
    · exact (areFields_iff (by decide)).2 ⟨f.values, h.1⟩
    · exact (areFields_iff (by decide)).2 ⟨f.values, h⟩
  · rintro (h | h)
    · obtain ⟨pieces, hpieces, hchain, rfl⟩ := h
      obtain ⟨val, hval, hall⟩ := exists_val (by decide) hpieces
      rw [← Fields.values_ofValues val] at hval
      refine ⟨Fields.ofValues val, fields?_eq_some_iff.2 (.inl ⟨?_, hall .year (by decide)⟩)⟩
      exact readAll?_eq_some_iff.2 ⟨pieces, hval, hchain, rfl⟩
    · obtain ⟨val, h⟩ := (areFields_iff (by decide)).1 h
      rw [← Fields.values_ofValues val] at h
      exact ⟨Fields.ofValues val, fields?_eq_some_iff.2 (.inr h)⟩

/-! ## The tokens of an expression -/

/-- six tokens or seven, each of them one field with the values that stand in its place, and every year where there is no
seventh -/
structure TokenByToken (tokens : List (List Char)) (f : Fields) : Prop where
  count : tokens.length = 6 ∨ tokens.length = 7
  each : List.Forall₂ (fun u t => IsField u t (f.values u)) (units.take tokens.length) tokens
  years : tokens.length = 6 → f.years = Unit.year.all

/-- **An expression that is read falls into pieces each of which is one field** -/
theorem exists_pieces_of_parse? {s : List Char} {f : Fields} (h : Fields.parse? s = some f) :
    ∃ pieces, TokenByToken pieces f ∧ s = pieces.flatten := by
  rcases fields?_eq_some_iff.1 h with ⟨h, hyears⟩ | h
  · obtain ⟨pieces, hpieces, -, hs⟩ := readAll?_eq_some_iff.1 h
    have hlength : pieces.length = 6 := hpieces.length_eq.symm
    exact ⟨pieces, ⟨.inl hlength, by rwa [hlength], fun _ => hyears⟩, hs⟩
  · obtain ⟨pieces, hpieces, -, hs⟩ := readAll?_eq_some_iff.1 h
    have hlength : pieces.length = 7 := hpieces.length_eq.symm
    exact ⟨pieces, ⟨.inr hlength, by rwa [hlength], fun h => by omega⟩, hs⟩

/-- **Tokens that are fields, with blanks between them, are read as the expression that they are** -/
theorem exists_parse?_of_tokens {tokens : List (List Char)} {s : List Char}
    (hcount : tokens.length = 6 ∨ tokens.length = 7)
    (htokens : List.Forall₂ (fun u t => ∃ values, IsField u t values) (units.take tokens.length) tokens)
    (hs : Spaced isSpace tokens s) : ∃ f, Fields.parse? s = some f ∧ TokenByToken tokens f := by
  obtain ⟨val, hval, hall⟩ := exists_val ((List.take_sublist _ _).nodup (by decide)) htokens
  rw [← Fields.values_ofValues val] at hval
  have hread := readAll?_of_tokens hval hs
  refine ⟨Fields.ofValues val, ?_, hcount, hval, ?_⟩
  · rcases hcount with hcount | hcount <;> rw [hcount, readAll?_skipSpace _ (by decide)] at hread
    · exact fields?_eq_some_iff.2 (.inl ⟨hread, hall .year (by rw [hcount]; decide)⟩)
    · exact fields?_eq_some_iff.2 (.inr hread)
  · intro hsix
    exact hall .year (by rw [hsix]; decide)

end SheetPost.Cron
