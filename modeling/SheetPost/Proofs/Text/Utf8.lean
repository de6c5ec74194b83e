/-
UTF-8 read back: the bytes of a character are a front of their own, whatever bytes follow, so the strict reader gives
back every text that was encoded. Characters split by how many bytes they take; in each case the first byte tells the
length and the others give six bits each.

Main statement: `decode?_encode`.
-/
import Mathlib.Tactic.SplitIfs
import SheetPost.Text.Utf8

namespace SheetPost.Text.Utf8

/-! ## Bytes by their numbers -/

variable {a b c d : UInt8} {v : Nat}

/-- `b` is the byte that continues a sequence with the low six bits of `v` -/
def Continues (b : UInt8) (v : Nat) : Prop := b.toNat = v % 64 + 0x80

theorem Continues.isTail (h : Continues b v) : isTail b = true := by
  have h1 : (0x80 : UInt8) ≤ b := UInt8.le_iff_toNat_le.2 (show 0x80 ≤ b.toNat by rw [h]; omega)
  have h2 : b ≤ (0xBF : UInt8) := UInt8.le_iff_toNat_le.2 (show b.toNat ≤ 0xBF by rw [h]; omega)
  simp [Utf8.isTail, h1, h2]

theorem Continues.tailBits (h : Continues b v) : tailBits b = v % 64 := by
  rw [Utf8.tailBits, h]
  omega

theorem secondOfThree_of_continues (ha : a.toNat = v / 4096 + 0xE0) (hb : Continues b (v / 64)) (h : 0x7FF < v)
    (hs : v < 0xD800 ∨ 0xDFFF < v) (hv : v ≤ 0xFFFF) : secondOfThree a b = true := by
  unfold Continues at hb
  unfold secondOfThree
  split
  · next he =>
    have he : a.toNat = 0xE0 := by rw [beq_iff_eq.1 he]; rfl
    have h1 : (0xA0 : UInt8) ≤ b := UInt8.le_iff_toNat_le.2 (show 0xA0 ≤ b.toNat by omega)
    have h2 : b ≤ (0xBF : UInt8) := UInt8.le_iff_toNat_le.2 (show b.toNat ≤ 0xBF by omega)
    simp [h1, h2]
  · split
    · next he =>
      have he : a.toNat = 0xED := by rw [beq_iff_eq.1 he]; rfl
      have h1 : (0x80 : UInt8) ≤ b := UInt8.le_iff_toNat_le.2 (show 0x80 ≤ b.toNat by omega)
      have h2 : b ≤ (0x9F : UInt8) := UInt8.le_iff_toNat_le.2 (show b.toNat ≤ 0x9F by omega)
      simp [h1, h2]
    · exact Continues.isTail (v := v / 64) hb

theorem secondOfFour_of_continues (ha : a.toNat = v / 262144 + 0xF0) (hb : Continues b (v / 4096)) (h : 0xFFFF < v)
    (hv : v < 0x110000) : secondOfFour a b = true := by
  unfold Continues at hb
  unfold secondOfFour
  split
  · next he =>
    have he : a.toNat = 0xF0 := by rw [beq_iff_eq.1 he]; rfl
    have h1 : (0x90 : UInt8) ≤ b := UInt8.le_iff_toNat_le.2 (show 0x90 ≤ b.toNat by omega)
    have h2 : b ≤ (0xBF : UInt8) := UInt8.le_iff_toNat_le.2 (show b.toNat ≤ 0xBF by omega)
    simp [h1, h2]
  · split
    · next he =>
      have he : a.toNat = 0xF4 := by rw [beq_iff_eq.1 he]; rfl
      have h1 : (0x80 : UInt8) ≤ b := UInt8.le_iff_toNat_le.2 (show 0x80 ≤ b.toNat by omega)
      have h2 : b ≤ (0x8F : UInt8) := UInt8.le_iff_toNat_le.2 (show b.toNat ≤ 0x8F by omega)
      simp [h1, h2]
    · exact Continues.isTail (v := v / 4096) hb

/-! ## Fronts, by the length of the sequence -/

theorem front_one (ha : a.toNat = v) (h : v ≤ 0x7F) (r : List UInt8) : front a r = .char (Char.ofNat v) r := by
  have h1 : a < 0x80 := by
    rw [UInt8.lt_iff_toNat_lt, ha]
    exact Nat.lt_succ_of_le h
  unfold front
  rw [if_pos h1, ha]

theorem front_two (ha : a.toNat = v / 64 + 0xC0) (hb : Continues b v) (h : 0x7F < v) (hv : v ≤ 0x7FF)
    (r : List UInt8) : front a (b :: r) = .char (Char.ofNat v) r := by
  have h1 : ¬ a < 0x80 := UInt8.not_lt.2 (UInt8.le_iff_toNat_le.2 (show 0x80 ≤ a.toNat by omega))
  have h2 : (0xC2 : UInt8) ≤ a := UInt8.le_iff_toNat_le.2 (show 0xC2 ≤ a.toNat by omega)
  have h3 : a ≤ (0xDF : UInt8) := UInt8.le_iff_toNat_le.2 (show a.toNat ≤ 0xDF by omega)
  have hc : a.toNat % 32 * 64 + tailBits b = v := by rw [ha, hb.tailBits]; omega
  simp [front, h1, h2, h3, hb.isTail, hc]

theorem front_three (ha : a.toNat = v / 4096 + 0xE0) (hb : Continues b (v / 64)) (hc : Continues c v) (h : 0x7FF < v)
    (hs : v < 0xD800 ∨ 0xDFFF < v) (hv : v ≤ 0xFFFF) (r : List UInt8) :
    front a (b :: c :: r) = .char (Char.ofNat v) r := by
  have h1 : ¬ a < 0x80 := UInt8.not_lt.2 (UInt8.le_iff_toNat_le.2 (show 0x80 ≤ a.toNat by omega))
  have h2 : ¬ a ≤ (0xDF : UInt8) := UInt8.not_le.2 (UInt8.lt_iff_toNat_lt.2 (show 0xDF < a.toNat by omega))
  have h3 : (0xE0 : UInt8) ≤ a := UInt8.le_iff_toNat_le.2 (show 0xE0 ≤ a.toNat by omega)
  have h4 : a ≤ (0xEF : UInt8) := UInt8.le_iff_toNat_le.2 (show a.toNat ≤ 0xEF by omega)
  have h5 := secondOfThree_of_continues ha hb h hs hv
  have he : (a.toNat % 16 * 64 + tailBits b) * 64 + tailBits c = v := by
    rw [ha, hb.tailBits, hc.tailBits]
    omega
  simp [front, h1, h2, h3, h4, h5, hc.isTail, he]

theorem front_four (ha : a.toNat = v / 262144 + 0xF0) (hb : Continues b (v / 4096)) (hc : Continues c (v / 64))
    (hd : Continues d v) (h : 0xFFFF < v) (hv : v < 0x110000) (r : List UInt8) :
    front a (b :: c :: d :: r) = .char (Char.ofNat v) r := by
  have h1 : ¬ a < 0x80 := UInt8.not_lt.2 (UInt8.le_iff_toNat_le.2 (show 0x80 ≤ a.toNat by omega))
  have h2 : ¬ a ≤ (0xDF : UInt8) := UInt8.not_le.2 (UInt8.lt_iff_toNat_lt.2 (show 0xDF < a.toNat by omega))
  have h3 : ¬ a ≤ (0xEF : UInt8) := UInt8.not_le.2 (UInt8.lt_iff_toNat_lt.2 (show 0xEF < a.toNat by omega))
  have h4 : (0xF0 : UInt8) ≤ a := UInt8.le_iff_toNat_le.2 (show 0xF0 ≤ a.toNat by omega)
  have h5 : a ≤ (0xF4 : UInt8) := UInt8.le_iff_toNat_le.2 (show a.toNat ≤ 0xF4 by omega)
  have h6 := secondOfFour_of_continues ha hb h hv
  have he : ((a.toNat % 8 * 64 + tailBits b) * 64 + tailBits c) * 64 + tailBits d = v := by
    rw [ha, hb.tailBits, hc.tailBits, hd.tailBits]
    omega
  simp [front, h1, h2, h3, h4, h5, h6, hc.isTail, hd.isTail, he]

/-- the bytes of a character are a front, and what follows them is the rest -/
theorem front_encodeChar (x : Char) (r : List UInt8) :
    ∃ a t, String.utf8EncodeChar x = a :: t ∧ front a (t ++ r) = .char x r := by
  have hx : Char.ofNat x.val.toNat = x := Char.ofNat_toNat x
  have hv := x.valid
  simp only [UInt32.isValidChar, Nat.isValidChar] at hv
  have byte {n : Nat} (h : n < 256) : (UInt8.ofNat n).toNat = n := by
    rw [UInt8.toNat_ofNat', Nat.mod_eq_of_lt h]
  have cont (n : Nat) : Continues (UInt8.ofNat (n % 64 + 0x80)) n := byte (by omega)
  rw [String.utf8EncodeChar]
  split_ifs with h1 h2 h3
  · refine ⟨_, _, rfl, ?_⟩
    rw [List.nil_append, front_one (byte (by omega)) h1, hx]
  · refine ⟨_, _, rfl, (front_two ((byte (by omega)).trans (by omega)) (cont _) (by omega) h2 r).trans ?_⟩
    rw [hx]
  · refine ⟨_, _, rfl, (front_three ((byte (by omega)).trans (by omega)) (cont _) (cont _) (by omega) (by omega) h3
      r).trans ?_⟩
    rw [hx]
  · refine ⟨_, _, rfl, (front_four ((byte (by omega)).trans (by omega)) (cont _) (cont _) (cont _) (by omega) (by omega)
      r).trans ?_⟩
    rw [hx]

/-! ## ASCII and the others -/

theorem encodeChar_of_lt {x : Char} (h : x.toNat < 0x80) : String.utf8EncodeChar x = [UInt8.ofNat x.toNat] := by
  have h : x.val.toNat ≤ 0x7F := Nat.le_of_lt_succ h
  rw [String.utf8EncodeChar, if_pos h]
  rfl

/-- no byte of another character is one of ASCII -/
theorem le_of_mem_encodeChar {x : Char} (h : 0x80 ≤ x.toNat) {b : UInt8} (hb : b ∈ String.utf8EncodeChar x) :
    0x80 ≤ b.toNat := by
  have h : 0x80 ≤ x.val.toNat := h
  have byte {n : Nat} (h : n < 256) (hn : 0x80 ≤ n) : 0x80 ≤ (UInt8.ofNat n).toNat := by
    rw [UInt8.toNat_ofNat', Nat.mod_eq_of_lt h]
    exact hn
  rw [String.utf8EncodeChar] at hb
  split_ifs at hb with h1 h2 h3
  · omega
  all_goals
    simp only [List.mem_cons, List.not_mem_nil, or_false] at hb
    rcases hb with rfl | rfl | rfl | rfl <;> exact byte (by omega) (by omega)

theorem ofNat_inj_of_lt {m n : Nat} (hm : m < 0x100) (hn : n < 0x100) (h : UInt8.ofNat m = UInt8.ofNat n) : m = n := by
  have := congrArg UInt8.toNat h
  rwa [UInt8.toNat_ofNat', UInt8.toNat_ofNat', Nat.mod_eq_of_lt hm, Nat.mod_eq_of_lt hn] at this

/-- the byte of a character of ASCII is in no other character -/
theorem not_mem_encodeChar {x d : Char} (hd : d.toNat < 0x80) (hx : x ≠ d) :
    UInt8.ofNat d.toNat ∉ String.utf8EncodeChar x := by
  intro h
  rcases Nat.lt_or_ge x.toNat 0x80 with hlt | hge
  · rw [encodeChar_of_lt hlt, List.mem_singleton] at h
    exact hx (Char.toNat_inj.1 (ofNat_inj_of_lt (by omega) (by omega) h).symm)
  · have hle := le_of_mem_encodeChar hge h
    rw [UInt8.toNat_ofNat', Nat.mod_eq_of_lt (by omega)] at hle
    omega

/-- and a text that begins with the byte begins with the character -/
theorem exists_of_encode_eq_cons {d : Char} (hd : d.toNat < 0x80) {s : List Char} {t : List UInt8}
    (h : encode s = UInt8.ofNat d.toNat :: t) : ∃ r, s = d :: r := by
  cases s with
  | nil => cases h
  | cons x r =>
    by_cases hx : x = d
    · exact ⟨r, by rw [hx]⟩
    · obtain ⟨a, u, he, -⟩ := front_encodeChar x []
      rw [encode_cons, he, List.cons_append, List.cons.injEq] at h
      refine absurd ?_ (not_mem_encodeChar hd hx)
      rw [he, h.1]
      exact List.mem_cons_self

/-! ## Lengths -/

theorem length_append (s t : List Char) : length (s ++ t) = length s + length t := by
  have key (n : Nat) (r : List Char) : r.foldl (fun n c => n + c.utf8Size) n = n + length r := by
    induction r generalizing n with
    | nil => rfl
    | cons c r ih =>
      rw [length, List.foldl_cons, List.foldl_cons, ih, ih (0 + _)]
      omega
  rw [length, List.foldl_append, key]
  rfl

theorem length_singleton (c : Char) : length [c] = c.utf8Size := Nat.zero_add _

/-- the count of bytes is how many there are -/
theorem length_encode (s : List Char) : (encode s).length = length s := by
  induction s with
  | nil => rfl
  | cons c s ih =>
    rw [encode_cons, List.length_append, String.length_utf8EncodeChar, ih, ← length_singleton, ← length_append]
    rfl

/-! ## Texts -/

theorem decode?_cons {t rest : List UInt8} {x : Char} (h : front a t = .char x rest) :
    decode? (a :: t) = (decode? rest).map (x :: ·) := by
  rw [decode?]
  split
  · next h' =>
    rw [h] at h'
    cases h'
    rfl
  · next h' =>
    rw [h] at h'
    cases h'

/-- **A text is read back from its bytes** -/
theorem decode?_encode (s : List Char) : decode? (encode s) = some s := by
  induction s with
  | nil => simp [encode, decode?]
  | cons x s ih =>
    obtain ⟨a, t, he, hf⟩ := front_encodeChar x (encode s)
    rw [encode_cons, he, List.cons_append, decode?_cons hf, ih]
    rfl

theorem encode_inj {s t : List Char} (h : encode s = encode t) : s = t := by
  apply Option.some.inj
  rw [← decode?_encode, h, decode?_encode]

/-! ## Texts of ASCII -/

theorem encode_of_ascii {s : List Char} (h : ∀ c ∈ s, c.toNat < 0x80) :
    encode s = s.map fun c => UInt8.ofNat c.toNat := by
  induction s with
  | nil => rfl
  | cons c s ih =>
    rw [encode_cons, encodeChar_of_lt (h c List.mem_cons_self), ih fun d hd => h d (List.mem_cons_of_mem c hd)]
    rfl

theorem length_of_ascii {s : List Char} (h : ∀ c ∈ s, c.toNat < 0x80) : length s = s.length := by
  rw [← length_encode, encode_of_ascii h, List.length_map]

/-- bytes of ASCII that stand between any two places are the characters that stand there -/
theorem decode?_take_drop {s : List Char} (h : ∀ c ∈ s, c.toNat < 0x80) (k n : Nat) :
    decode? (((encode s).drop k).take n) = some ((s.drop k).take n) := by
  have hpiece : ∀ c ∈ (s.drop k).take n, c.toNat < 0x80 := fun c hc => h c (List.mem_of_mem_drop (List.mem_of_mem_take hc))
  rw [encode_of_ascii h, ← List.map_drop, ← List.map_take, ← encode_of_ascii hpiece, decode?_encode]

end SheetPost.Text.Utf8
