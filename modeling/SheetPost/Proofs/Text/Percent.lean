/-
Percent encoding of texts where the percent sign itself is kept. An escape that a text holds of its own is then kept as
well, and it is resolved with the others: what is read back is the text with its own escapes resolved.

Main statements: what is read back (`decode_encode_utf8`), that it is the text just if there was no escape in it
(`unescape_eq_encode_iff`), and that what is encoded can be encoded again without a change (`isKept_encode`).
-/
import Mathlib.Data.List.Infix
import SheetPost.Proofs.Text.Utf8
import SheetPost.Text.Percent

namespace SheetPost.Text.Percent

/-! ## Escapes in a text -/

/-- a hexadecimal digit -/
def isHex (c : Char) : Bool := (digitValue? 16 c).isSome

/-- the bytes of a text with the escapes in it resolved -/
def unescape : List Char → List UInt8
  | '%' :: x :: y :: r =>
    match digitValue? 16 x, digitValue? 16 y with
    | some a, some b => UInt8.ofNat (a * 16 + b) :: unescape r
    | _, _ => 0x25 :: unescape (x :: y :: r)
  | c :: r => String.utf8EncodeChar c ++ unescape r
  | [] => []

/-- a percent sign with two hexadecimal digits behind it stands in the text -/
def HoldsEscape (s : List Char) : Prop := ∃ x y, ['%', x, y] <:+: s ∧ isHex x = true ∧ isHex y = true

theorem holdsEscape_cons {c : Char} {r : List Char} :
    HoldsEscape (c :: r) ↔ (∃ x y t, c = '%' ∧ r = x :: y :: t ∧ isHex x = true ∧ isHex y = true) ∨ HoldsEscape r := by
  constructor
  · intro h
    obtain ⟨x, y, hs, hx, hy⟩ := h
    rcases List.infix_cons_iff.1 hs with hp | hi
    · obtain ⟨t, ht⟩ := hp
      simp only [List.cons_append, List.nil_append, List.cons.injEq] at ht
      obtain ⟨rfl, rfl⟩ := ht
      exact .inl ⟨x, y, t, rfl, rfl, hx, hy⟩
    · exact .inr ⟨x, y, hi, hx, hy⟩
  · intro h
    rcases h with ⟨x, y, t, rfl, rfl, hx, hy⟩ | ⟨x, y, hi, hx, hy⟩
    · exact ⟨x, y, List.infix_cons_iff.2 (.inl ⟨t, rfl⟩), hx, hy⟩
    · exact ⟨x, y, List.infix_cons_iff.2 (.inr hi), hx, hy⟩

theorem HoldsEscape.of_infix {s t : List Char} (hs : HoldsEscape s) (h : s <:+: t) : HoldsEscape t := by
  obtain ⟨x, y, hin, hx, hy⟩ := hs
  exact ⟨x, y, hin.trans h, hx, hy⟩

theorem utf8_percent : String.utf8EncodeChar '%' = [0x25] := by decide

/-- an escape gives one byte for three -/
theorem length_unescape_le (s : List Char) : (unescape s).length ≤ (Utf8.encode s).length := by
  fun_induction unescape s with
  | case1 x y r a b hy hx ih =>
    simp only [List.length_cons, Utf8.encode_cons, List.length_append, String.length_utf8EncodeChar]
    have := x.utf8Size_pos
    omega
  | case2 x y r hxy ih =>
    rw [Utf8.encode_cons, utf8_percent, List.singleton_append]
    exact Nat.succ_le_succ ih
  | case3 c r hc ih =>
    rw [Utf8.encode_cons, List.length_append, List.length_append]
    exact Nat.add_le_add_left ih _
  | case4 => exact Nat.le_refl _

/-- **Resolving escapes changes nothing just if there are none** -/
theorem unescape_eq_encode_iff (s : List Char) : unescape s = Utf8.encode s ↔ ¬ HoldsEscape s := by
  fun_induction unescape s with
  | case1 x y r a b hy hx ih =>
    have hholds : HoldsEscape ('%' :: x :: y :: r) :=
      holdsEscape_cons.2 (.inl ⟨x, y, r, rfl, rfl, by simp [isHex, hx], by simp [isHex, hy]⟩)
    refine ⟨fun h => ?_, fun h => absurd hholds h⟩
    have hlength := congrArg List.length h
    simp only [List.length_cons, Utf8.encode_cons, List.length_append, String.length_utf8EncodeChar] at hlength
    have := length_unescape_le r
    have := Char.utf8Size_pos '%'
    have := x.utf8Size_pos
    have := y.utf8Size_pos
    omega
  | case2 x y r hxy ih =>
    rw [Utf8.encode_cons, utf8_percent, List.singleton_append, List.cons.injEq, and_iff_right rfl, ih, not_iff_not,
      holdsEscape_cons (c := '%'), or_iff_right]
    intro h
    obtain ⟨x', y', t, -, ht, hx, hy⟩ := h
    simp only [List.cons.injEq] at ht
    obtain ⟨rfl, rfl, rfl⟩ := ht
    obtain ⟨a, ha⟩ := Option.isSome_iff_exists.1 hx
    obtain ⟨b, hb⟩ := Option.isSome_iff_exists.1 hy
    exact hxy a b ha hb
  | case3 c r hc ih =>
    rw [Utf8.encode_cons, List.append_cancel_left_eq, ih, not_iff_not, holdsEscape_cons (c := c), or_iff_right]
    intro h
    obtain ⟨x, y, t, rfl, rfl, -, -⟩ := h
    exact hc x y t rfl rfl
  | case4 =>
    refine ⟨fun _ h => ?_, fun _ => rfl⟩
    obtain ⟨x, y, hs, -, -⟩ := h
    have := List.infix_nil.1 hs
    cases this

/-! ## Reading back -/

/-- the bytes that are not escaped: ASCII only, and among them those that escapes are written with -/
structure KeepsEscapes (plain : UInt8 → Bool) : Prop where
  ascii : ∀ b, plain b = true → b.toNat < 0x80
  percent : plain 0x25 = true
  hex : ∀ c, isHex c = true → plain (UInt8.ofNat c.toNat) = true

variable {plain : UInt8 → Bool}

theorem encode_cons (b : UInt8) (bytes : List UInt8) :
    encode plain (b :: bytes) = (if plain b then [Char.ofNat b.toNat] else escape b) ++ encode plain bytes := rfl

theorem encode_append (s t : List UInt8) : encode plain (s ++ t) = encode plain s ++ encode plain t := by
  simp [encode]

/-- a byte that is escaped takes two characters more -/
theorem length_encode (bytes : List UInt8) :
    (encode plain bytes).length = bytes.length + 2 * bytes.countP fun b => !plain b := by
  induction bytes with
  | nil => rfl
  | cons b bytes ih =>
    rw [encode_cons, List.length_append, ih, List.length_cons, List.countP_cons]
    cases plain b with
    | true =>
      simp
      omega
    | false =>
      simp [escape, hexByte]
      omega

theorem decode_cons {c : Char} (hc : c ≠ '%') (s : List Char) : decode (c :: s) = UInt8.ofNat c.toNat :: decode s := by
  rw [decode]
  intro a b r h
  exact absurd h hc

/-- a percent sign without two digits behind it stands for itself -/
theorem decode_percent {s : List Char} (h : ∀ x y r, s = x :: y :: r → isHex x = true → ¬ isHex y = true) :
    decode ('%' :: s) = 0x25 :: decode s := by
  rcases s with - | ⟨x, - | ⟨y, r⟩⟩
  · rfl
  · rfl
  · rw [decode]
    split
    · next a b hx hy => exact absurd (by simp [isHex, hy]) (h x y r rfl (by simp [isHex, hx]))
    · rfl

theorem toNat_ofNat_of_lt {n : Nat} (h : n < 0x80) : (Char.ofNat n).toNat = n := by
  rw [Char.ofNat, dif_pos (.inl (by omega))]
  rfl

/-- where the percent sign is escaped, all bytes are read back -/
theorem decode_encode (hp : ∀ b, plain b = true → b.toNat < 0x80 ∧ b ≠ 0x25) (bytes : List UInt8) :
    decode (encode plain bytes) = bytes := by
  induction bytes with
  | nil => rfl
  | cons b bytes ih =>
    rw [encode_cons]
    split
    · next hb =>
      obtain ⟨hlt, hne⟩ := hp b hb
      have hn := toNat_ofNat_of_lt hlt
      have hc : Char.ofNat b.toNat ≠ '%' := by
        intro he
        rw [he] at hn
        exact hne (UInt8.toNat_inj.1 hn.symm)
      rw [List.singleton_append, decode_cons hc, hn, UInt8.ofNat_toNat, ih]
    · rw [decode_escape, ih]

/-- bytes without a percent sign are read back, whatever stands behind them -/
theorem decode_encode_append (hp : KeepsEscapes plain) {bytes : List UInt8} (h : (0x25 : UInt8) ∉ bytes)
    (s : List Char) : decode (encode plain bytes ++ s) = bytes ++ decode s := by
  induction bytes with
  | nil => rfl
  | cons b bytes ih =>
    rw [List.mem_cons, not_or] at h
    rw [encode_cons, List.append_assoc]
    split
    · next hb =>
      have hn := toNat_ofNat_of_lt (hp.ascii b hb)
      have hc : Char.ofNat b.toNat ≠ '%' := by
        intro he
        rw [he] at hn
        exact h.1 (UInt8.toNat_inj.1 hn)
      rw [List.singleton_append, decode_cons hc, hn, UInt8.ofNat_toNat, ih h.2, List.cons_append]
    · rw [decode_escape, ih h.2, List.cons_append]

theorem not_isHex_percent : ¬ isHex '%' = true := by decide

theorem lt_of_isHex {c : Char} (h : isHex c = true) : c.toNat < 0x80 := by
  obtain ⟨n, hn⟩ := Option.isSome_iff_exists.1 h
  simp only [digitValue?] at hn
  split_ifs at hn <;> omega

/-- a character that is kept goes through as it is -/
theorem encode_kept {c : Char} (hc : c.toNat < 0x80) (h : plain (UInt8.ofNat c.toNat) = true) (s : List Char) :
    encode plain (Utf8.encode (c :: s)) = c :: encode plain (Utf8.encode s) := by
  have hb : (UInt8.ofNat c.toNat).toNat = c.toNat := by
    rw [UInt8.toNat_ofNat', Nat.mod_eq_of_lt (by omega)]
  rw [Utf8.encode_cons, Utf8.encodeChar_of_lt hc, List.singleton_append, encode_cons, if_pos h, hb, Char.ofNat_toNat]
  rfl

/-- a digit at the front of an encoded text is the first character of the text -/
theorem exists_of_encode_eq_cons (hp : KeepsEscapes plain) {s t : List Char} {x : Char}
    (h : encode plain (Utf8.encode s) = x :: t) (hx : isHex x = true) :
    ∃ r, s = x :: r ∧ t = encode plain (Utf8.encode r) := by
  cases s with
  | nil => cases h
  | cons c r =>
    by_cases hk : c.toNat < 0x80 ∧ plain (UInt8.ofNat c.toNat) = true
    · rw [encode_kept hk.1 hk.2] at h
      cases h
      exact ⟨r, rfl, rfl⟩
    · -- the first byte of `c` is escaped, so the text begins with a percent sign
      obtain ⟨b, t', he, -⟩ := Utf8.front_encodeChar c []
      have hb : ¬ plain b = true := by
        intro hplain
        have hlt := hp.ascii b hplain
        rcases Nat.lt_or_ge c.toNat 0x80 with hc | hc
        · rw [Utf8.encodeChar_of_lt hc, List.cons.injEq] at he
          exact hk ⟨hc, he.1 ▸ hplain⟩
        · have := Utf8.le_of_mem_encodeChar hc (he ▸ List.mem_cons_self)
          omega
      rw [Utf8.encode_cons, he, List.cons_append, encode_cons, if_neg hb] at h
      cases h
      exact absurd hx not_isHex_percent

/-- **What is read back of an encoded text** is the text with its own escapes resolved -/
theorem decode_encode_utf8 (hp : KeepsEscapes plain) (s : List Char) :
    decode (encode plain (Utf8.encode s)) = unescape s := by
  have hkept {r : List Char} : encode plain (Utf8.encode ('%' :: r)) = '%' :: encode plain (Utf8.encode r) :=
    encode_kept (by decide) hp.percent r
  fun_induction unescape s with
  | case1 x y r a b hy hx ih =>
    have hdigit {c : Char} {t : List Char} {n : Nat} (hc : digitValue? 16 c = some n) :
        encode plain (Utf8.encode (c :: t)) = c :: encode plain (Utf8.encode t) := by
      have hc : isHex c = true := by rw [isHex, hc, Option.isSome_some]
      exact encode_kept (lt_of_isHex hc) (hp.hex c hc) t
    rw [hkept, hdigit hx, hdigit hy, decode, hx, hy, ← ih]
  | case2 x y r hxy ih =>
    rw [hkept, decode_percent, ih]
    intro x' y' t ht hx hy
    obtain ⟨t1, h1, ht1⟩ := exists_of_encode_eq_cons hp ht hx
    obtain ⟨t2, h2, -⟩ := exists_of_encode_eq_cons hp ht1.symm hy
    subst h2
    cases h1
    obtain ⟨a, ha⟩ := Option.isSome_iff_exists.1 hx
    obtain ⟨b, hb⟩ := Option.isSome_iff_exists.1 hy
    exact hxy a b ha hb
  | case3 c r hc ih =>
    by_cases h : c = '%'
    · subst h
      rw [hkept, decode_percent, ih]
      · rfl
      · intro x y t ht hx hy
        obtain ⟨t1, rfl, ht1⟩ := exists_of_encode_eq_cons hp ht hx
        obtain ⟨t2, rfl, -⟩ := exists_of_encode_eq_cons hp ht1.symm hy
        exact hc x y t2 rfl rfl
    · rw [Utf8.encode_cons, encode_append, decode_encode_append hp (Utf8.not_mem_encodeChar (d := '%') (by decide) h), ih]
  | case4 => rfl

/-! ## What stands in an encoded text -/

theorem isHex_hexDigit {n : Nat} (h : n < 16) : isHex (hexDigit n) = true := by
  rw [isHex, digitValue?_hexDigit h, Option.isSome_some]

/-- what an encoded text holds is written by an escape, or it is kept from the text -/
theorem mem_of_mem_encode (hp : KeepsEscapes plain) {c : Char} {s : List Char}
    (h : c ∈ encode plain (Utf8.encode s)) (hpercent : c ≠ '%') (hhex : isHex c = false) :
    c ∈ s ∧ plain (UInt8.ofNat c.toNat) = true := by
  obtain ⟨b, hb, hc⟩ := List.mem_flatMap.1 h
  obtain ⟨a, ha, hba⟩ := List.mem_flatMap.1 hb
  split at hc
  · next hplain =>
    rw [List.mem_singleton] at hc
    have hlt := hp.ascii b hplain
    have hcb : c.toNat = b.toNat := by rw [hc, toNat_ofNat_of_lt hlt]
    rw [hcb, UInt8.ofNat_toNat]
    refine ⟨?_, hplain⟩
    rcases Nat.lt_or_ge a.toNat 0x80 with hlow | hhigh
    · rw [Utf8.encodeChar_of_lt hlow, List.mem_singleton] at hba
      rw [hba, UInt8.toNat_ofNat', Nat.mod_eq_of_lt (by omega)] at hcb
      exact Char.toNat_inj.1 hcb ▸ ha
    · exact absurd (Utf8.le_of_mem_encodeChar hhigh hba) (Nat.not_le.2 hlt)
  · have hlt := b.toNat_lt
    rw [escape, hexByte, List.mem_cons, List.mem_cons, List.mem_singleton] at hc
    rcases hc with rfl | rfl | rfl
    · exact absurd rfl hpercent
    · rw [isHex_hexDigit (by omega)] at hhex
      cases hhex
    · rw [isHex_hexDigit (by omega)] at hhex
      cases hhex

theorem encode_ne_nil {bytes : List UInt8} (h : bytes ≠ []) : encode plain bytes ≠ [] := by
  obtain ⟨b, bytes, rfl⟩ := List.exists_cons_of_ne_nil h
  rw [encode_cons]
  split <;> simp [escape]

/-! ## Texts that need no escape -/

/-- every character of the text is kept -/
def IsKept (plain : UInt8 → Bool) (s : List Char) : Prop :=
  ∀ c ∈ s, c.toNat < 0x80 ∧ plain (UInt8.ofNat c.toNat) = true

theorem encode_of_isKept {s : List Char} (h : IsKept plain s) : encode plain (Utf8.encode s) = s := by
  induction s with
  | nil => rfl
  | cons c s ih =>
    obtain ⟨hlt, hplain⟩ := h c List.mem_cons_self
    rw [encode_kept hlt hplain, ih fun d hd => h d (List.mem_cons_of_mem c hd)]

/-- what is encoded is not encoded again -/
theorem isKept_encode (hp : KeepsEscapes plain) (bytes : List UInt8) : IsKept plain (encode plain bytes) := by
  intro c hc
  obtain ⟨b, -, hc⟩ := List.mem_flatMap.1 hc
  split at hc
  · next hplain =>
    have hlt := hp.ascii b hplain
    rw [List.mem_singleton.1 hc, toNat_ofNat_of_lt hlt, UInt8.ofNat_toNat]
    exact ⟨hlt, hplain⟩
  · have hb := b.toNat_lt
    have hdigit {n : Nat} (hn : n < 16) :
        (hexDigit n).toNat < 0x80 ∧ plain (UInt8.ofNat (hexDigit n).toNat) = true :=
      ⟨lt_of_isHex (isHex_hexDigit hn), hp.hex _ (isHex_hexDigit hn)⟩
    rw [escape, hexByte, List.mem_cons, List.mem_cons, List.mem_singleton] at hc
    rcases hc with rfl | rfl | rfl
    · exact ⟨by decide, hp.percent⟩
    · exact hdigit (by omega)
    · exact hdigit (by omega)

/-- no escape goes over a character that is no digit -/
theorem decode_append {c : Char} (hc : isHex c = false) (s r : List Char) :
    decode (s ++ c :: r) = decode s ++ decode (c :: r) := by
  fun_induction decode s with
  | case1 x y s a b hy hx ih =>
    simp only [List.cons_append]
    rw [decode, hx, hy, ih]
  | case2 x y s hxy ih =>
    simp only [List.cons_append] at ih ⊢
    rw [decode_percent, ih]
    intro x' y' t ht hx hy
    obtain ⟨a, ha⟩ := Option.isSome_iff_exists.1 hx
    obtain ⟨b, hb⟩ := Option.isSome_iff_exists.1 hy
    simp only [List.cons.injEq] at ht
    obtain ⟨rfl, rfl, -⟩ := ht
    exact hxy a b ha hb
  | case3 d s hd ih =>
    by_cases h : d = '%'
    · subst h
      rw [List.cons_append, decode_percent, ih]
      · rfl
      · intro x y t ht hx hy
        -- the escape would take in the character
        rcases s with - | ⟨x', - | ⟨y', s⟩⟩
        · cases ht
          rw [hc] at hx
          cases hx
        · cases ht
          rw [hc] at hy
          cases hy
        · exact hd x' y' s rfl rfl
    · rw [List.cons_append, decode_cons h, ih, List.cons_append]
  | case4 => rfl

end SheetPost.Text.Percent
