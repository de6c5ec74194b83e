/-
Bytes read as text with a mark wherever they are not UTF-8. The marks are told by the characters alone, without a word
on how bytes are read: where no character stands, one mark is for the longest run of bytes that some character begins
with, or for a single byte. Reading agrees with that because a first byte says which bytes may follow it, and any bytes
that it lets follow are the bytes of a character.

Main statements: `replaced_iff`, for all bytes; `decodeLossy_encode` and `decodeLossy_of_decode?` for those of a text.
-/
import Mathlib.Data.List.Forall2
import SheetPost.Proofs.Text.Utf8

namespace SheetPost.Text.Utf8

/-! ## Marks -/

/-- the mark -/
def replacement : Char := Char.ofNat 0xFFFD

/-- some character begins with these bytes -/
def Begins (p : List UInt8) : Prop := ∃ c, p <+: String.utf8EncodeChar c

/-- the bytes that one mark is for, and what follows them -/
structure IsStretch (p rest : List UInt8) : Prop where
  noChar : ∀ c, ¬ String.utf8EncodeChar c <+: p ++ rest
  begins : p.length = 1 ∨ p ≠ [] ∧ Begins p
  longest : ∀ b more, rest = b :: more → ¬ Begins (p ++ [b])

/-- bytes, and their text with a mark for each stretch that is none -/
inductive Replaced : List UInt8 → List Char → Prop
  | nil : Replaced [] []
  | char (c : Char) {rest : List UInt8} {s : List Char} :
      Replaced rest s → Replaced (String.utf8EncodeChar c ++ rest) (c :: s)
  | stretch {p rest : List UInt8} {s : List Char} :
      IsStretch p rest → Replaced rest s → Replaced (p ++ rest) (replacement :: s)

theorem Begins.of_append {p q : List UInt8} (h : Begins (p ++ q)) : Begins p := by
  obtain ⟨c, hc⟩ := h
  exact ⟨c, (List.prefix_append p q).trans hc⟩

namespace IsStretch

variable {p p' rest rest' : List UInt8}

theorem ne_nil (h : IsStretch p rest) : p ≠ [] := by
  rcases h.begins with hone | ⟨hne, -⟩
  · exact List.ne_nil_of_length_eq_add_one hone
  · exact hne

/-- a longer stretch at the same place would begin a character with the next byte -/
theorem not_longer {b : UInt8} {more : List UInt8} (h : IsStretch p (b :: more)) :
    ¬ IsStretch (p ++ b :: rest) rest' := by
  intro hlonger
  have hlength := List.length_pos_iff.2 h.ne_nil
  rcases hlonger.begins with hone | ⟨-, hbegins⟩
  · rw [List.length_append, List.length_cons] at hone
    omega
  · rw [List.append_cons] at hbegins
    exact h.longest b more rfl hbegins.of_append

/-- where a stretch ends is settled by the bytes -/
theorem unique (h : IsStretch p rest) (h' : IsStretch p' rest') (heq : p ++ rest = p' ++ rest') :
    p = p' ∧ rest = rest' := by
  rcases List.append_eq_append_iff.1 heq with ⟨q, rfl, rfl⟩ | ⟨q, rfl, rfl⟩
  · cases q with
    | nil => exact ⟨(List.append_nil p).symm, rfl⟩
    | cons b q => exact absurd h' h.not_longer
  · cases q with
    | nil => exact ⟨List.append_nil p', rfl⟩
    | cons b q => exact absurd h h'.not_longer

end IsStretch

/-! ## First bytes -/

/-- what a first byte says: its payload, and a test on each byte behind it -/
def lead? (a : UInt8) : Option (Nat × List (UInt8 → Bool)) :=
  if a < 0x80 then some (a.toNat, [])
  else if 0xC2 ≤ a && a ≤ 0xDF then some (a.toNat % 32, [isTail])
  else if 0xE0 ≤ a && a ≤ 0xEF then some (a.toNat % 16, [secondOfThree a, isTail])
  else if 0xF0 ≤ a && a ≤ 0xF4 then some (a.toNat % 8, [secondOfFour a, isTail, isTail])
  else none

/-- the front with the tests still to pass and the payload so far -/
def follow (v : Nat) : List (UInt8 → Bool) → List UInt8 → Front
  | [], r => .char (Char.ofNat v) r
  | _ :: _, [] => .bad []
  | p :: ps, b :: r => if p b then follow (v * 64 + tailBits b) ps r else .bad (b :: r)

/-- the front is what passes the tests of the first byte -/
theorem front_eq_follow (a : UInt8) (r : List UInt8) :
    front a r = match lead? a with
      | some (v, ps) => follow v ps r
      | none => .bad r := by
  unfold front lead?
  split_ifs with h1 h2 h3 h4
  · rfl
  · cases r <;> simp [follow]
  · rcases r with _ | ⟨b, _ | ⟨c, r⟩⟩
    · rfl
    · cases hb : secondOfThree a b <;> simp [follow, hb]
    · cases hb : secondOfThree a b <;> cases hc : isTail c <;> simp [follow, hb, hc]
  · rcases r with _ | ⟨b, _ | ⟨c, _ | ⟨d, r⟩⟩⟩
    · rfl
    · cases hb : secondOfFour a b <;> simp [follow, hb]
    · cases hb : secondOfFour a b <;> cases hc : isTail c <;> simp [follow, hb, hc]
    · cases hb : secondOfFour a b <;> cases hc : isTail c <;> cases hd : isTail d <;> simp [follow, hb, hc, hd]
  · rfl

/-- one byte for each test, and it passes -/
def Passes (ps : List (UInt8 → Bool)) (t : List UInt8) : Prop := List.Forall₂ (fun p b => p b = true) ps t

/-- the payload of a sequence -/
def payload (v : Nat) (t : List UInt8) : Nat := t.foldl (fun v b => v * 64 + tailBits b) v

/-- either every test is passed, or the bytes end at one of the tests or fail it -/
theorem follow_cases (v : Nat) (ps : List (UInt8 → Bool)) (r : List UInt8) :
    (∃ t rest, r = t ++ rest ∧ Passes ps t ∧ follow v ps r = .char (Char.ofNat (payload v t)) rest) ∨
      ∃ t rest qs p more, r = t ++ rest ∧ ps = qs ++ p :: more ∧ Passes qs t ∧
        (∀ b rest', rest = b :: rest' → p b = false) ∧ follow v ps r = .bad rest := by
  fun_induction follow v ps r with
  | case1 v r => exact .inl ⟨[], r, rfl, .nil, rfl⟩
  | case2 v p ps => exact .inr ⟨[], [], [], p, ps, rfl, rfl, .nil, nofun, rfl⟩
  | case3 v p ps b r hb ih =>
    rcases ih with ⟨t, rest, rfl, ht, hf⟩ | ⟨t, rest, qs, q, more, rfl, rfl, ht, hq, hf⟩
    · exact .inl ⟨b :: t, rest, rfl, .cons hb ht, hf⟩
    · exact .inr ⟨b :: t, rest, p :: qs, q, more, rfl, rfl, .cons hb ht, hq, hf⟩
  | case4 v p ps b r hb =>
    refine .inr ⟨[], b :: r, [], p, ps, rfl, rfl, .nil, fun b' rest' h => ?_, rfl⟩
    cases h
    exact Bool.eq_false_iff.2 hb

/-! ## Characters -/

theorem toNat_ofNat {n : Nat} (h : n.isValidChar) : (Char.ofNat n).val.toNat = n := by
  rw [Char.ofNat, dif_pos h]
  rfl

theorem ofNat_eq {n : Nat} {b : UInt8} (h : n = b.toNat) : UInt8.ofNat n = b := by rw [h, UInt8.ofNat_toNat]

theorem bounds_of_isTail {b : UInt8} (h : isTail b = true) : 0x80 ≤ b.toNat ∧ b.toNat ≤ 0xBF := by
  simpa [isTail, UInt8.le_iff_toNat_le] using h

/-- neither an overlong form nor a surrogate -/
theorem bounds_of_secondOfThree {a b : UInt8} (h : secondOfThree a b = true) :
    0x80 ≤ b.toNat ∧ b.toNat ≤ 0xBF ∧ (a.toNat = 0xE0 → 0xA0 ≤ b.toNat) ∧ (a.toNat = 0xED → b.toNat ≤ 0x9F) := by
  simp only [secondOfThree, isTail, beq_iff_eq, ← UInt8.toNat_inj, UInt8.le_iff_toNat_le] at h
  simp only [UInt8.reduceToNat] at h
  split_ifs at h <;> simp at h <;> omega

/-- neither an overlong form nor past the last character -/
theorem bounds_of_secondOfFour {a b : UInt8} (h : secondOfFour a b = true) :
    0x80 ≤ b.toNat ∧ b.toNat ≤ 0xBF ∧ (a.toNat = 0xF0 → 0x90 ≤ b.toNat) ∧ (a.toNat = 0xF4 → b.toNat ≤ 0x8F) := by
  simp only [secondOfFour, isTail, beq_iff_eq, ← UInt8.toNat_inj, UInt8.le_iff_toNat_le] at h
  simp only [UInt8.reduceToNat] at h
  split_ifs at h <;> simp at h <;> omega

section

variable {a b c d : UInt8}

theorem encodeChar_of_one (ha : a.toNat < 0x80) : String.utf8EncodeChar (Char.ofNat a.toNat) = [a] := by
  have hn := toNat_ofNat (n := a.toNat) (.inl (by omega))
  simp only [String.utf8EncodeChar, hn]
  rw [if_pos (by omega), UInt8.ofNat_toNat]

theorem encodeChar_of_two (ha : 0xC2 ≤ a.toNat ∧ a.toNat ≤ 0xDF) (hb : isTail b = true) :
    String.utf8EncodeChar (Char.ofNat (a.toNat % 32 * 64 + tailBits b)) = [a, b] := by
  have hb := bounds_of_isTail hb
  unfold tailBits
  have hn := toNat_ofNat (n := a.toNat % 32 * 64 + b.toNat % 64) (.inl (by omega))
  simp only [String.utf8EncodeChar, hn]
  rw [if_neg (by omega), if_pos (by omega), ofNat_eq (b := a) (by omega), ofNat_eq (b := b) (by omega)]

theorem encodeChar_of_three (ha : 0xE0 ≤ a.toNat ∧ a.toNat ≤ 0xEF) (hb : secondOfThree a b = true)
    (hc : isTail c = true) :
    String.utf8EncodeChar (Char.ofNat ((a.toNat % 16 * 64 + tailBits b) * 64 + tailBits c)) = [a, b, c] := by
  have hb := bounds_of_secondOfThree hb
  have hc := bounds_of_isTail hc
  unfold tailBits
  have hn := toNat_ofNat (n := (a.toNat % 16 * 64 + b.toNat % 64) * 64 + c.toNat % 64)
    (by unfold Nat.isValidChar; omega)
  simp only [String.utf8EncodeChar, hn]
  rw [if_neg (by omega), if_neg (by omega), if_pos (by omega), ofNat_eq (b := a) (by omega),
    ofNat_eq (b := b) (by omega), ofNat_eq (b := c) (by omega)]

theorem encodeChar_of_four (ha : 0xF0 ≤ a.toNat ∧ a.toNat ≤ 0xF4) (hb : secondOfFour a b = true)
    (hc : isTail c = true) (hd : isTail d = true) :
    String.utf8EncodeChar (Char.ofNat (((a.toNat % 8 * 64 + tailBits b) * 64 + tailBits c) * 64 + tailBits d)) =
      [a, b, c, d] := by
  have hb := bounds_of_secondOfFour hb
  have hc := bounds_of_isTail hc
  have hd := bounds_of_isTail hd
  unfold tailBits
  have hn := toNat_ofNat (n := ((a.toNat % 8 * 64 + b.toNat % 64) * 64 + c.toNat % 64) * 64 + d.toNat % 64)
    (by unfold Nat.isValidChar; omega)
  simp only [String.utf8EncodeChar, hn]
  rw [if_neg (by omega), if_neg (by omega), if_neg (by omega), ofNat_eq (b := a) (by omega),
    ofNat_eq (b := b) (by omega), ofNat_eq (b := c) (by omega), ofNat_eq (b := d) (by omega)]

end

/-- **Bytes that a first byte lets follow are those of a character** -/
theorem encodeChar_of_lead {a : UInt8} {v : Nat} {ps : List (UInt8 → Bool)} {t : List UInt8}
    (ha : lead? a = some (v, ps)) (ht : Passes ps t) :
    String.utf8EncodeChar (Char.ofNat (payload v t)) = a :: t := by
  unfold lead? at ha
  simp only [Bool.and_eq_true, decide_eq_true_eq, UInt8.le_iff_toNat_le, UInt8.lt_iff_toNat_lt] at ha
  split_ifs at ha with h1 h2 h3 h4
  all_goals obtain ⟨rfl, rfl⟩ := Prod.mk.inj (Option.some.inj ha)
  · obtain rfl := List.forall₂_nil_left_iff.1 ht
    exact encodeChar_of_one h1
  · rcases ht with _ | ⟨hb, _ | _⟩
    exact encodeChar_of_two h2 hb
  · rcases ht with _ | ⟨hb, _ | ⟨hc, _ | _⟩⟩
    exact encodeChar_of_three h3 hb hc
  · rcases ht with _ | ⟨hb, _ | ⟨hc, _ | ⟨hd, _ | _⟩⟩⟩
    exact encodeChar_of_four h4 hb hc hd

/-- and those of a character are bytes that the first one lets follow -/
theorem exists_lead_of_encodeChar {c : Char} {a : UInt8} {t : List UInt8} (h : String.utf8EncodeChar c = a :: t) :
    ∃ v ps, lead? a = some (v, ps) ∧ Passes ps t := by
  obtain ⟨a', t', ht, hf⟩ := front_encodeChar c []
  obtain ⟨rfl, rfl⟩ := List.cons.inj (h.symm.trans ht)
  rw [List.append_nil, front_eq_follow] at hf
  cases ha : lead? a with
  | none =>
    rw [ha] at hf
    cases hf
  | some lead =>
    obtain ⟨v, ps⟩ := lead
    simp only [ha] at hf
    rcases follow_cases v ps t with ⟨t, rest, rfl, hps, hchar⟩ | ⟨t, rest, qs, p, more, rfl, rfl, hqs, hp, hbad⟩
    · obtain rfl := (Front.char.inj (hchar.symm.trans hf)).2
      exact ⟨v, ps, rfl, (List.append_nil t).symm ▸ hps⟩
    · rw [hf] at hbad
      cases hbad

/-- no test is such that no byte passes it -/
theorem exists_passes_of_lead {a : UInt8} {v : Nat} {ps : List (UInt8 → Bool)} (ha : lead? a = some (v, ps)) :
    ∀ p ∈ ps, ∃ b, p b = true := by
  have htail : ∃ b, isTail b = true := ⟨0x80, rfl⟩
  have hthree : ∃ b, secondOfThree a b = true := by
    unfold secondOfThree
    split_ifs
    · exact ⟨0xA0, rfl⟩
    · exact ⟨0x80, rfl⟩
    · exact htail
  have hfour : ∃ b, secondOfFour a b = true := by
    unfold secondOfFour
    split_ifs
    · exact ⟨0x90, rfl⟩
    · exact ⟨0x80, rfl⟩
    · exact htail
  unfold lead? at ha
  split_ifs at ha
  all_goals
    obtain ⟨-, rfl⟩ := Prod.mk.inj (Option.some.inj ha)
    simp [htail, hthree, hfour]

theorem exists_passes {ps : List (UInt8 → Bool)} (h : ∀ p ∈ ps, ∃ b, p b = true) : ∃ t, Passes ps t := by
  induction ps with
  | nil => exact ⟨[], .nil⟩
  | cons p ps ih =>
    rw [List.forall_mem_cons] at h
    obtain ⟨b, hb⟩ := h.1
    obtain ⟨t, ht⟩ := ih h.2
    exact ⟨b :: t, .cons hb ht⟩

/-- a character begins with the bytes that pass the first tests, however many these are -/
theorem begins_of_passes {a : UInt8} {v : Nat} {qs more : List (UInt8 → Bool)} {t : List UInt8}
    (ha : lead? a = some (v, qs ++ more)) (ht : Passes qs t) : Begins (a :: t) := by
  obtain ⟨u, hu⟩ := exists_passes fun p hp => exists_passes_of_lead ha p (List.mem_append_right qs hp)
  refine ⟨Char.ofNat (payload v (t ++ u)), u, ?_⟩
  rw [encodeChar_of_lead ha (List.rel_append ht hu), List.cons_append]

theorem exists_lead_of_begins {a : UInt8} {t : List UInt8} (h : Begins (a :: t)) :
    ∃ v ps u, lead? a = some (v, ps) ∧ Passes ps (t ++ u) := by
  obtain ⟨c, u, hu⟩ := h
  obtain ⟨v, ps, ha, hps⟩ := exists_lead_of_encodeChar hu.symm
  exact ⟨v, ps, u, ha, hps⟩

/-- and no character goes on with a byte that fails the next one -/
theorem not_begins_of_fails {a b : UInt8} {v : Nat} {p : UInt8 → Bool} {qs more : List (UInt8 → Bool)}
    {t : List UInt8} (ha : lead? a = some (v, qs ++ p :: more)) (ht : Passes qs t) (hb : p b = false) :
    ¬ Begins (a :: (t ++ [b])) := by
  intro h
  obtain ⟨v', ps, u, hlead, hps⟩ := exists_lead_of_begins h
  obtain rfl : qs ++ p :: more = ps := by
    rw [ha] at hlead
    exact (Prod.mk.inj (Option.some.inj hlead)).2
  have hat := List.forall₂_drop qs.length hps
  rw [List.drop_left, ht.length_eq, List.append_assoc, List.drop_left] at hat
  obtain ⟨hpass, -⟩ := List.forall₂_cons.1 hat
  rw [hb] at hpass
  cases hpass

/-! ## Fronts -/

section

variable {a : UInt8} {r rest : List UInt8} {c : Char}

theorem encodeChar_of_front (h : front a r = .char c rest) : a :: r = String.utf8EncodeChar c ++ rest := by
  rw [front_eq_follow] at h
  cases ha : lead? a with
  | none =>
    rw [ha] at h
    cases h
  | some lead =>
    obtain ⟨v, ps⟩ := lead
    simp only [ha] at h
    rcases follow_cases v ps r with ⟨t, rest', rfl, ht, hchar⟩ | ⟨t, rest', qs, p, more, rfl, rfl, ht, hp, hbad⟩
    · obtain ⟨rfl, rfl⟩ := Front.char.inj (hchar.symm.trans h)
      rw [encodeChar_of_lead ha ht, List.cons_append]
    · rw [h] at hbad
      cases hbad

/-- no character stands where the front is none -/
theorem not_prefix_of_front (h : front a r = .bad rest) (c : Char) : ¬ String.utf8EncodeChar c <+: a :: r := by
  rintro ⟨u, hu⟩
  obtain ⟨a', t, ht, hf⟩ := front_encodeChar c u
  rw [ht, List.cons_append] at hu
  obtain ⟨rfl, rfl⟩ := List.cons.inj hu
  rw [h] at hf
  cases hf

/-- **A front that is no character is a stretch** -/
theorem isStretch_of_front (h : front a r = .bad rest) : ∃ p, a :: r = p ++ rest ∧ IsStretch p rest := by
  have hnone := not_prefix_of_front h
  rw [front_eq_follow] at h
  cases ha : lead? a with
  | none =>
    rw [ha] at h
    cases h
    refine ⟨[a], rfl, hnone, .inl rfl, fun b more _ hbegins => ?_⟩
    obtain ⟨v, ps, u, hlead, -⟩ := exists_lead_of_begins hbegins
    rw [ha] at hlead
    cases hlead
  | some lead =>
    obtain ⟨v, ps⟩ := lead
    simp only [ha] at h
    rcases follow_cases v ps r with ⟨t, rest', rfl, ht, hchar⟩ | ⟨t, rest', qs, p, more, rfl, rfl, ht, hp, hbad⟩
    · rw [h] at hchar
      cases hchar
    · obtain rfl := Front.bad.inj (hbad.symm.trans h)
      refine ⟨a :: t, rfl, hnone, .inr ⟨List.cons_ne_nil a t, begins_of_passes ha ht⟩, fun b rest hrest => ?_⟩
      exact not_begins_of_fails ha ht (hp b rest hrest)

end

/-! ## Texts -/

theorem decodeLossy_char {a : UInt8} {r rest : List UInt8} {c : Char} (h : front a r = .char c rest) :
    decodeLossy (a :: r) = c :: decodeLossy rest := by
  rw [decodeLossy]
  split
  · next h' =>
    rw [h] at h'
    cases h'
    rfl
  · next h' =>
    rw [h] at h'
    cases h'

theorem decodeLossy_bad {a : UInt8} {r rest : List UInt8} (h : front a r = .bad rest) :
    decodeLossy (a :: r) = replacement :: decodeLossy rest := by
  rw [decodeLossy]
  split
  · next h' =>
    rw [h] at h'
    cases h'
  · next h' =>
    rw [h] at h'
    cases h'
    rfl

theorem replaced_decodeLossy (bytes : List UInt8) : Replaced bytes (decodeLossy bytes) := by
  fun_induction decodeLossy bytes with
  | case1 => exact .nil
  | case2 a r c rest h hle ih =>
    rw [encodeChar_of_front h]
    exact .char c ih
  | case3 a r rest h hle ih =>
    obtain ⟨p, hp, hstretch⟩ := isStretch_of_front h
    rw [hp]
    exact .stretch hstretch ih

theorem decodeLossy_of_replaced {bytes : List UInt8} {s : List Char} (h : Replaced bytes s) :
    decodeLossy bytes = s := by
  induction h with
  | nil => rw [decodeLossy]
  | @char c rest s _ ih =>
    obtain ⟨a, t, ht, hf⟩ := front_encodeChar c rest
    rw [ht, List.cons_append, decodeLossy_char hf, ih]
  | @stretch p rest s hp _ ih =>
    obtain ⟨a, t, rfl⟩ := List.exists_cons_of_ne_nil hp.ne_nil
    rw [List.cons_append]
    cases hf : front a (t ++ rest) with
    | char c rest' =>
      refine absurd ?_ (hp.noChar c)
      rw [List.cons_append, encodeChar_of_front hf]
      exact List.prefix_append _ _
    | bad rest' =>
      obtain ⟨p', hp', hstretch⟩ := isStretch_of_front hf
      obtain ⟨-, rfl⟩ := hp.unique hstretch hp'
      rw [decodeLossy_bad hf, ih]

/-- **Any bytes have one text with marks, which is the one that is read** -/
theorem replaced_iff {bytes : List UInt8} {s : List Char} : Replaced bytes s ↔ decodeLossy bytes = s :=
  ⟨decodeLossy_of_replaced, fun h => h ▸ replaced_decodeLossy bytes⟩

theorem replaced_encode (s : List Char) : Replaced (encode s) s := by
  induction s with
  | nil => exact .nil
  | cons c s ih => exact .char c ih

/-- the bytes of a text need no marks -/
theorem decodeLossy_encode (s : List Char) : decodeLossy (encode s) = s := decodeLossy_of_replaced (replaced_encode s)

theorem encode_of_decode? {bytes : List UInt8} {s : List Char} (h : decode? bytes = some s) : encode s = bytes := by
  fun_induction decode? bytes generalizing s with
  | case1 =>
    cases h
    rfl
  | case2 a r c rest hf hle ih =>
    obtain ⟨t, ht, rfl⟩ := Option.map_eq_some_iff.1 h
    rw [encode_cons, ih ht, encodeChar_of_front hf]
  | case3 => cases h

/-- where the strict reader gives a text, the other gives the same -/
theorem decodeLossy_of_decode? {bytes : List UInt8} {s : List Char} (h : decode? bytes = some s) :
    decodeLossy bytes = s := by
  rw [← encode_of_decode? h, decodeLossy_encode]

end SheetPost.Text.Utf8
