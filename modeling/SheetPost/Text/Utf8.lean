/-
Texts as UTF-8 bytes, and bytes read back as text: strictly (`decode?`) or with a replacement character for every
ill-formed stretch (`decodeLossy`). A stretch is the longest beginning of a well-formed sequence, or one byte.
-/

namespace SheetPost.Text.Utf8

/-- the bytes of a text -/
def encode (s : List Char) : List UInt8 := s.flatMap String.utf8EncodeChar

/-- how many bytes a text takes -/
def length (s : List Char) : Nat := s.foldl (fun n c => n + c.utf8Size) 0

/-- what stands at the front of some bytes: a character with the rest, or an ill-formed stretch with the rest -/
inductive Front where
  | char (c : Char) (rest : List UInt8)
  | bad (rest : List UInt8)

/-- the byte continues a sequence -/
def isTail (b : UInt8) : Bool := 0x80 ≤ b && b ≤ 0xBF

/-- the payload of a continuation byte -/
def tailBits (b : UInt8) : Nat := b.toNat % 64

/-- the bytes allowed second in a sequence of three, by the first: no overlong forms, no surrogates -/
def secondOfThree (a b : UInt8) : Bool :=
  if a == 0xE0 then 0xA0 ≤ b && b ≤ 0xBF else if a == 0xED then 0x80 ≤ b && b ≤ 0x9F else isTail b

/-- the bytes allowed second in a sequence of four, by the first: no overlong forms, nothing past U+10FFFF -/
def secondOfFour (a b : UInt8) : Bool :=
  if a == 0xF0 then 0x90 ≤ b && b ≤ 0xBF else if a == 0xF4 then 0x80 ≤ b && b ≤ 0x8F else isTail b

/-- the front of the bytes `a :: r` -/
def front (a : UInt8) (r : List UInt8) : Front :=
  if a < 0x80 then .char (Char.ofNat a.toNat) r
  else if 0xC2 ≤ a && a ≤ 0xDF then
    match r with
    | b :: r => if isTail b then .char (Char.ofNat (a.toNat % 32 * 64 + tailBits b)) r else .bad (b :: r)
    | [] => .bad []
  else if 0xE0 ≤ a && a ≤ 0xEF then
    match r with
    | b :: c :: r =>
      if !secondOfThree a b then .bad (b :: c :: r)
      else if isTail c then .char (Char.ofNat ((a.toNat % 16 * 64 + tailBits b) * 64 + tailBits c)) r
      else .bad (c :: r)
    | [b] => if secondOfThree a b then .bad [] else .bad [b]
    | [] => .bad []
  else if 0xF0 ≤ a && a ≤ 0xF4 then
    match r with
    | b :: c :: d :: r =>
      if !secondOfFour a b then .bad (b :: c :: d :: r)
      else if !isTail c then .bad (c :: d :: r)
      else if isTail d then
        .char (Char.ofNat (((a.toNat % 8 * 64 + tailBits b) * 64 + tailBits c) * 64 + tailBits d)) r
      else .bad (d :: r)
    | [b, c] => if !secondOfFour a b then .bad [b, c] else if isTail c then .bad [] else .bad [c]
    | [b] => if secondOfFour a b then .bad [] else .bad [b]
    | [] => .bad []
  else .bad r

/-- the bytes behind the front -/
def Front.rest : Front → List UInt8
  | .char _ r => r
  | .bad r => r

theorem length_rest_front_le (a : UInt8) (r : List UInt8) : (front a r).rest.length ≤ r.length := by
  unfold front
  repeat' split
  all_goals simp [Front.rest] <;> omega

/-- the text that the bytes encode, if they are well-formed -/
def decode? : List UInt8 → Option (List Char)
  | [] => some []
  | a :: r =>
    match h : front a r with
    | .char c rest =>
      have hle : rest.length ≤ r.length := by
        have hr := length_rest_front_le a r
        rw [h] at hr
        exact hr
      (decode? rest).map (c :: ·)
    | .bad _ => none
termination_by bytes => bytes.length
decreasing_by
  rw [List.length_cons]
  exact Nat.lt_succ_of_le hle

/-- the text of the bytes, with U+FFFD for each ill-formed stretch -/
def decodeLossy : List UInt8 → List Char
  | [] => []
  | a :: r =>
    match h : front a r with
    | .char c rest =>
      have hle : rest.length ≤ r.length := by
        have hr := length_rest_front_le a r
        rw [h] at hr
        exact hr
      c :: decodeLossy rest
    | .bad rest =>
      have hle : rest.length ≤ r.length := by
        have hr := length_rest_front_le a r
        rw [h] at hr
        exact hr
      Char.ofNat 0xFFFD :: decodeLossy rest
termination_by bytes => bytes.length
decreasing_by
  all_goals
    rw [List.length_cons]
    exact Nat.lt_succ_of_le hle

theorem encode_cons (c : Char) (s : List Char) : encode (c :: s) = String.utf8EncodeChar c ++ encode s := rfl

theorem encode_append (s t : List Char) : encode (s ++ t) = encode s ++ encode t := by
  simp [encode]

end SheetPost.Text.Utf8
