/-
Quoted strings of mail headers: a text in double quotes, with a backslash before each quote and each backslash.

Main statement: what is written is read back (`decode?_encode`).
-/

namespace SheetPost.Mail.QuotedString

/-- one character between the quotes -/
def escape (c : Char) : List Char := if c == '\\' || c == '"' then ['\\', c] else [c]

/-- the text between the quotes -/
def body (s : List Char) : List Char := s.flatMap escape

/-- a text as a quoted string -/
def encode (s : List Char) : List Char := '"' :: (body s ++ ['"'])

/-- the text up to the closing quote, and what follows that -/
def readBody? : List Char → Option (List Char × List Char)
  | '\\' :: c :: r => (readBody? r).map fun (s, rest) => (c :: s, rest)
  | '"' :: r => some ([], r)
  | c :: r => if c == '\\' then none else (readBody? r).map fun (s, rest) => (c :: s, rest)
  | [] => none

/-- the text of a quoted string at the front, and what follows it -/
def read? : List Char → Option (List Char × List Char)
  | '"' :: r => readBody? r
  | _ => none

/-- the text of a quoted string that stands alone -/
def decode? (s : List Char) : Option (List Char) :=
  match read? s with
  | some (t, []) => some t
  | _ => none

/-- a text without the two signs stands between the quotes as it is -/
theorem body_of_not_mem {s : List Char} (hb : '\\' ∉ s) (hq : '"' ∉ s) : body s = s := by
  induction s with
  | nil => rfl
  | cons c s ih =>
    rw [List.mem_cons, not_or] at hb hq
    have hc : escape c = [c] := by simp [escape, Ne.symm hb.1, Ne.symm hq.1]
    have e : body (c :: s) = escape c ++ body s := rfl
    rw [e, hc, ih hb.2 hq.2]
    rfl

theorem readBody?_body (s r : List Char) : readBody? (body s ++ '"' :: r) = some (s, r) := by
  induction s with
  | nil => rfl
  | cons c s ih =>
    have e : body (c :: s) ++ '"' :: r = escape c ++ (body s ++ '"' :: r) := by simp [body]
    rw [e]
    by_cases hb : c = '\\'
    · subst hb
      simp [escape, readBody?, ih]
    · by_cases hq : c = '"'
      · subst hq
        simp [escape, readBody?, ih]
      · simp [escape, hb, hq, readBody?, ih]

theorem decode?_encode (s : List Char) : decode? (encode s) = some s := by
  simp [decode?, encode, read?, readBody?_body]

end SheetPost.Mail.QuotedString
