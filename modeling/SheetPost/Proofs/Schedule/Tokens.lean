/-
The tokens of an expression and the fields of the schedule that is read from it. The expression is cut at blanks and
counted, put together again, and then read by a grammar in which blanks may stand anywhere between signs and numbers; the
two agree on what a field is just where every token is one field by itself.

Main statement: the fields of the schedule are those of the tokens just if each token is one field (`tokens_of_parse`).
-/
import SheetPost.Proofs.Cron.Expression
import SheetPost.Proofs.Schedule.Interval
import SheetPost.Proofs.Schedule.Parse

namespace SheetPost.Schedule

open SheetPost.Text SheetPost.Cron

/-! ## Tokens -/

/-- the tokens that are read as fields: five with seconds in front, and the last of five and of six renumbered -/
def normalized? : List (List Char) → Option (List (List Char))
  | [m, h, d, mo, w] => (Weekday.renumber? w).map fun w => [['0'], m, h, d, mo, w]
  | [sec, m, h, d, mo, w] => (Weekday.renumber? w).map fun w => [sec, m, h, d, mo, w]
  | [sec, m, h, d, mo, w, y] => some [sec, m, h, d, mo, w, y]
  | _ => none

theorem length_normalized? {words tokens : List (List Char)} (h : normalized? words = some tokens) :
    tokens.length = 6 ∨ tokens.length = 7 := by
  unfold normalized? at h
  split at h
  · obtain ⟨w, -, rfl⟩ := Option.map_eq_some_iff.1 h
    exact .inl rfl
  · obtain ⟨w, -, rfl⟩ := Option.map_eq_some_iff.1 h
    exact .inl rfl
  · cases h
    exact .inr rfl
  · cases h

/-! ## Expressions that are read -/

/-- what is read is the tokens with blanks between them -/
theorem exists_of_ofExpression {s : List Char} {schedule : Schedule} (h : ofExpression s = .ok schedule) :
    ∃ tokens source fields, normalized? (words s) = some tokens ∧ Spaced isBlank tokens source ∧
      Fields.parse? source = some fields ∧ schedule = .cron (String.ofList source) fields := by
  have hcron {source : List Char} (h : ofCron source = .ok schedule) :
      ∃ fields, Fields.parse? source = some fields ∧ schedule = .cron (String.ofList source) fields := by
    unfold ofCron at h
    split at h
    · next fields hf =>
      cases h
      exact ⟨fields, hf, rfl⟩
    · cases h
  have hfields {others : List (List Char)} {w : List Char} (h : ofFields others w = .ok schedule) :
      ∃ d source fields, Weekday.renumber? w = some d ∧ Spaced isBlank (others ++ [d]) source ∧
        Fields.parse? source = some fields ∧ schedule = .cron (String.ofList source) fields := by
    unfold ofFields at h
    split at h
    · next d hd =>
      obtain ⟨fields, hf, hs⟩ := hcron h
      exact ⟨d, _, fields, hd, .join (by decide) _, hf, hs⟩
    · cases h
  unfold ofExpression at h
  split at h
  · next m hr d mo w hw =>
    obtain ⟨d, source, fields, hd, hspaced, hf, hs⟩ := hfields h
    exact ⟨_, source, fields, by rw [hw, normalized?, hd]; rfl, hspaced, hf, hs⟩
  · next sec m hr d mo w hw =>
    obtain ⟨d, source, fields, hd, hspaced, hf, hs⟩ := hfields h
    exact ⟨_, source, fields, by rw [hw, normalized?, hd]; rfl, hspaced, hf, hs⟩
  · next hw =>
    obtain ⟨fields, hf, hs⟩ := hcron h
    exact ⟨words s, s, fields, by rw [hw, normalized?], spaced_words s, hf, hs⟩
  · cases h

/-! ## Shortcuts and intervals -/

/-- no blank stands in an interval -/
theorem not_isBlank_of_read {s : List Char} {d : Interval} (h : Interval.read s = .interval d) :
    ∀ c ∈ s, isBlank c = false := by
  obtain ⟨items, rfl, -⟩ := Interval.read_eq_interval_iff.1 h
  intro c hc
  obtain ⟨i, -, hc⟩ := List.mem_flatMap.1 hc
  rcases List.mem_append.1 hc with hc | hc
  · exact Grammar.not_isBlank_of_isAlphanum (Grammar.isAlphanum_of_isDigit (i.isDigit c hc))
  · have hunit : (i.unit.text.all fun c => !isBlank c) = true := by cases i.unit <;> decide
    exact not_isBlank_of_all hunit c hc

theorem length_words_le_one {w : List Char} (h : ∀ c ∈ w, isBlank c = false) : (words w).length ≤ 1 := by
  by_cases hw : w = []
  · subst hw
    decide
  · rw [words_of_not_blank hw h]
    exact Nat.le_refl 1

/-- an interval is one word behind `@every` or the same word -/
theorem length_words_every {rest : List Char} {schedule : Schedule} (h : ofEvery (trim rest) = .ok schedule) :
    (words ("@every".toList ++ rest)).length ≤ 2 := by
  have hblank : ∀ c ∈ trim rest, isBlank c = false := by
    unfold ofEvery at h
    split at h
    · next d hd => exact not_isBlank_of_read hd
    · cases h
    · cases h
  obtain ⟨a, b, hrest, ha, hb⟩ := exists_trimWhile isBlank rest
  rw [hrest, ← trim]
  cases a with
  | nil =>
    rw [List.nil_append, ← List.append_assoc, words_append_blanks hb]
    refine (length_words_le_one fun c hc => ?_).trans (by decide)
    rcases List.mem_append.1 hc with hc | hc
    · exact not_isBlank_of_all (by decide : ("@every".toList.all fun c => !isBlank c) = true) c hc
    · exact hblank c hc
  | cons c a =>
    rw [List.cons_append, words_append_blank (ha c List.mem_cons_self),
      words_blanks_append fun d hd => ha d (List.mem_cons_of_mem _ hd), words_append_blanks hb, List.length_append]
    exact Nat.add_le_add (by decide) (length_words_le_one hblank)

theorem length_words_shortcut {s : List Char} {expression : String}
    (h : shortcut? (String.ofList s) = some expression) : (words s).length ≤ 1 := by
  obtain ⟨l, l', htable, -⟩ := List.lookup_eq_some_iff.1 h
  have hkeys : ∀ p ∈ [("@yearly", "0 0 0 1 1 *"), ("@annually", "0 0 0 1 1 *"), ("@monthly", "0 0 0 1 * *"),
      ("@weekly", "0 0 0 * * 1"), ("@daily", "0 0 0 * * *"), ("@midnight", "0 0 0 * * *"), ("@hourly", "0 0 * * * *")],
      (p.1.toList.all fun c => !isBlank c) = true := by
    decide
  have := not_isBlank_of_all (hkeys (String.ofList s, expression) (by rw [htable]; simp))
  rw [String.toList_ofList] at this
  exact length_words_le_one this

/-- an expression of five tokens or more is no shortcut and no interval -/
theorem ofExpression_of_parse {text : String} {schedule : Schedule} (h : parse text = .ok schedule)
    (hlength : 5 ≤ (words text.toList).length) : ofExpression (trim text.toList) = .ok schedule := by
  rw [← words_trim] at hlength
  have hparsed := parsed text
  generalize parse text = r at h hparsed
  cases hparsed with
  | empty => cases h
  | every hs =>
    obtain ⟨rest, hrest, rfl⟩ := hs
    have := length_words_every h
    rw [← hrest] at this
    omega
  | shortcut he =>
    have := length_words_shortcut he
    omega
  | unknown => cases h
  | expression => exact h

/-! ## Tokens and fields -/

/-- each token is one field by itself -/
def EachIsField (tokens : List (List Char)) : Prop :=
  List.Forall₂ (fun u t => ∃ values, Grammar.IsField u t values) (units.take tokens.length) tokens

theorem TokenByToken.eachIsField {tokens : List (List Char)} {f : Fields} (h : TokenByToken tokens f) :
    EachIsField tokens :=
  h.each.imp fun u _ ht => ⟨f.values u, ht⟩

/-- the first word is one of the tokens -/
theorem mem_of_normalized? {w : List Char} {ws tokens : List (List Char)} (h : normalized? (w :: ws) = some tokens) :
    w ∈ tokens := by
  unfold normalized? at h
  split at h
  · next hws =>
    cases hws
    obtain ⟨d, -, rfl⟩ := Option.map_eq_some_iff.1 h
    simp
  · next hws =>
    cases hws
    obtain ⟨d, -, rfl⟩ := Option.map_eq_some_iff.1 h
    simp
  · next hws =>
    cases hws
    cases h
    exact List.mem_cons_self
  · cases h

theorem EachIsField.exists_isField {tokens : List (List Char)} (h : EachIsField tokens) {t : List Char}
    (ht : t ∈ tokens) : ∃ u values, Grammar.IsField u t values := by
  unfold EachIsField at h
  generalize units.take tokens.length = us at h
  induction h with
  | nil => cases ht
  | @cons u t' us tokens hfield _ ih =>
    rcases List.mem_cons.1 ht with rfl | ht
    · exact ⟨u, hfield⟩
    · exact ih ht

/-- five or six tokens are joined by spaces before they are read -/
theorem ofExpression_of_normalized? {s : List Char} {tokens : List (List Char)}
    (htokens : normalized? (words s) = some tokens) (hlength : (words s).length ≠ 7) :
    ofExpression s = ofCron (join [' '] tokens) := by
  unfold normalized? at htokens
  split at htokens
  · next m hr d mo w hws =>
    obtain ⟨w', hw', rfl⟩ := Option.map_eq_some_iff.1 htokens
    simp only [ofExpression, hws, ofFields, hw']
    rfl
  · next sec m hr d mo w hws =>
    obtain ⟨w', hw', rfl⟩ := Option.map_eq_some_iff.1 htokens
    simp only [ofExpression, hws, ofFields, hw']
    rfl
  · next hws =>
    rw [hws] at hlength
    exact absurd rfl hlength
  · cases htokens

/-- a word that is a field does not begin with the sign of an interval or a shortcut: no field does -/
theorem words_at_ne {u : Cron.Unit} {w : List Char} {values : List Nat} (h : Grammar.IsField u w values) (r : List Char)
    (ws : List (List Char)) : words ('@' :: r) ≠ w :: ws := by
  intro hwords
  have hspaced := spaced_words ('@' :: r)
  rw [hwords] at hspaced
  generalize hat : '@' :: r = s at hspaced
  cases hspaced with
  | @word b t ts s hb _ _ =>
    obtain ⟨c, hc, hstarts⟩ := h.first s
    cases b with
    | nil =>
      rw [List.nil_append] at hat
      rw [← hat] at hc
      cases hc
      cases hstarts
    | cons c' b =>
      cases hat
      have := hb '@' List.mem_cons_self
      cases this

/-- a text whose first word is a field is taken for an expression -/
theorem parse_eq_ofExpression {text : String} {w : List Char} {ws : List (List Char)}
    (hwords : words text.toList = w :: ws) (h : ∃ u values, Grammar.IsField u w values) :
    parse text = ofExpression (trim text.toList) := by
  obtain ⟨u, values, h⟩ := h
  rw [← words_trim] at hwords
  unfold parse
  simp only
  split
  · next hs =>
    rw [hs] at hwords
    cases hwords
  · next r hs =>
    rw [hs] at hwords
    exact absurd hwords (words_at_ne h r ws)
  · rfl

/-- **Five or six tokens that are fields are accepted** -/
theorem exists_parse_of_tokens {text : String} {tokens : List (List Char)}
    (htokens : normalized? (words text.toList) = some tokens) (hlength : (words text.toList).length ≠ 7)
    (heach : EachIsField tokens) : ∃ source fields, parse text = .ok (.cron source fields) ∧ TokenByToken tokens fields := by
  obtain ⟨fields, hparse, htoken⟩ :=
    exists_parse?_of_tokens (length_normalized? htokens) heach (.join (by decide : Grammar.isSpace ' ' = true) tokens)
  refine ⟨String.ofList (join [' '] tokens), fields, ?_, htoken⟩
  obtain ⟨w, ws, hws⟩ : ∃ w ws, words text.toList = w :: ws := by
    refine List.exists_cons_of_ne_nil fun hnil => ?_
    rw [hnil] at htokens
    cases htokens
  have hmem : w ∈ tokens := mem_of_normalized? (hws ▸ htokens)
  rw [parse_eq_ofExpression hws (heach.exists_isField hmem)]
  rw [← words_trim] at htokens hlength
  rw [ofExpression_of_normalized? htokens hlength, ofCron, hparse]

/-- **The fields of a schedule are those of the tokens just if each token is one field by itself.** Whatever is read falls
into pieces that are the fields; where a token is no field, it is some other piece that is read in its place. -/
theorem tokens_of_parse {text : String} {schedule : Schedule} (h : parse text = .ok schedule)
    (hlow : 5 ≤ (words text.toList).length) :
    ∃ tokens source fields, normalized? (words text.toList) = some tokens ∧ schedule = .cron source fields ∧
      (∃ pieces, TokenByToken pieces fields ∧ source.toList = pieces.flatten) ∧
      (TokenByToken tokens fields ↔ EachIsField tokens) := by
  obtain ⟨tokens, source, fields, htokens, hspaced, hparse, hschedule⟩ :=
    exists_of_ofExpression (ofExpression_of_parse h hlow)
  rw [words_trim] at htokens
  obtain ⟨pieces, hpieces, hsource⟩ := exists_pieces_of_parse? hparse
  refine ⟨tokens, String.ofList source, fields, htokens, hschedule,
    ⟨pieces, hpieces, by rw [String.toList_ofList, hsource]⟩, TokenByToken.eachIsField, fun heach => ?_⟩
  -- all blanks of a text that is read are those of the grammar
  have hplain : Grammar.PlainBlanks source := hsource ▸ Grammar.plainBlanks_flatten hpieces.each
  obtain ⟨fields', hparse', htoken⟩ := exists_parse?_of_tokens (length_normalized? htokens) heach (hspaced.imp hplain)
  rw [hparse, Option.some.injEq] at hparse'
  exact hparse' ▸ htoken

/-- the working days at nine: every token is one field, and these are the fields -/
theorem tokens_of_parse_workdays :
    parse "0 9 * * 1-5" = .ok (.cron "0 0 9 * * 2-6"
      ⟨[0], [0], [9], Unit.dayOfMonth.all, Unit.month.all, [2, 3, 4, 5, 6], Unit.year.all⟩) ∧
    5 ≤ (words "0 9 * * 1-5".toList).length ∧
    TokenByToken [['0'], ['0'], ['9'], ['*'], ['*'], ['2', '-', '6']]
      ⟨[0], [0], [9], Unit.dayOfMonth.all, Unit.month.all, [2, 3, 4, 5, 6], Unit.year.all⟩ := by
  have h : parse "0 9 * * 1-5" = .ok (.cron "0 0 9 * * 2-6"
      ⟨[0], [0], [9], Unit.dayOfMonth.all, Unit.month.all, [2, 3, 4, 5, 6], Unit.year.all⟩) := by decide +kernel
  have hlow : 5 ≤ (words "0 9 * * 1-5".toList).length := by decide
  obtain ⟨tokens, source, fields, htokens, hschedule, -, hiff⟩ := tokens_of_parse h hlow
  cases hschedule
  have hnormalized : normalized? (words "0 9 * * 1-5".toList) =
      some [['0'], ['0'], ['9'], ['*'], ['*'], ['2', '-', '6']] := by decide +kernel
  rw [hnormalized, Option.some.injEq] at htokens
  subst htokens
  refine ⟨h, hlow, hiff.2 ?_⟩
  have hfield (u : Cron.Unit) (t : List Char) (ht : ((Grammar.field? u t).map Prod.snd) = some []) :
      ∃ values, Grammar.IsField u t values := by
    obtain ⟨⟨values, r⟩, hr, rfl⟩ := Option.map_eq_some_iff.1 ht
    exact ⟨values, Grammar.field?_eq_some_iff.1 hr⟩
  exact .cons (hfield _ _ (by decide +kernel)) (.cons (hfield _ _ (by decide +kernel))
    (.cons (hfield _ _ (by decide +kernel)) (.cons (hfield _ _ (by decide +kernel))
      (.cons (hfield _ _ (by decide +kernel)) (.cons (hfield _ _ (by decide +kernel)) .nil)))))

/-- one token read as two fields, so that there are seven, and two read as one, so that there are six -/
theorem parse_shifted_tokens :
    (parse "*2 * * * *" = .ok (.cron "0 *2 * * * *"
        ⟨[0], Unit.minute.all, [2], Unit.dayOfMonth.all, Unit.month.all, Unit.dayOfWeek.all, Unit.year.all⟩) ∧
      normalized? (words "*2 * * * *".toList) = some [['0'], ['*', '2'], ['*'], ['*'], ['*'], ['*']] ∧
      ∀ values, ¬ Grammar.IsField .minute ['*', '2'] values) ∧
    parse "0 5/ 5 * * * 1" = .ok (.cron "0 5/ 5 * * * 1"
        ⟨[0], (List.range' 1 11).map (5 * ·), Unit.hour.all, Unit.dayOfMonth.all, Unit.month.all, [1], Unit.year.all⟩) ∧
      ∀ values, ¬ Grammar.IsField .minute ['5', '/'] values := by
  have hjoined : Grammar.field? .minute ['*', '2'] = some (Unit.minute.all, ['2']) := by decide +kernel
  have hcut : Grammar.field? .minute ['5', '/'] = some ([5], ['/']) := by decide +kernel
  refine ⟨⟨by decide +kernel, by decide +kernel, fun values h => ?_⟩, by decide +kernel, fun values h => ?_⟩
  · rw [← Grammar.field?_eq_some_iff, hjoined] at h
    cases h
  · rw [← Grammar.field?_eq_some_iff, hcut] at h
    cases h

end SheetPost.Schedule
