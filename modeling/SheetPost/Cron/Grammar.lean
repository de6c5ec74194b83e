/-
The grammar of cron expressions: six fields and perhaps a year, read from left to right. Blanks (space, tab, line feed,
carriage return) may stand around every number, name and sign, so a field ends where no sign goes on; the comma alone
takes no blank before it but those of the item in front.

Each reader takes a text and gives what it has read with the rest of the text. Where several forms are possible the
first that fits is taken, and nothing is read again in another way.
-/
import SheetPost.Cron.Field

namespace SheetPost.Cron

/-- the fields of a schedule: each the values that it selects, in order -/
structure Fields where
  seconds : List Nat
  minutes : List Nat
  hours : List Nat
  daysOfMonth : List Nat
  months : List Nat
  daysOfWeek : List Nat
  years : List Nat
deriving DecidableEq, Repr

namespace Grammar

/-! ## Signs, numbers and names -/

/-- a blank of the grammar -/
def isSpace (c : Char) : Bool := c == ' ' || c == '\t' || c == '\r' || c == '\n'

/-- the text behind the blanks at its front -/
def skipSpace (s : List Char) : List Char := s.dropWhile isSpace

/-- the characters at the front that satisfy `p`, at least one, with blanks on both sides -/
def token? (p : Char → Bool) (s : List Char) : Option (List Char × List Char) :=
  let s := skipSpace s
  let t := s.takeWhile p
  if t.isEmpty then none else some (t, skipSpace (s.dropWhile p))

/-- the largest number -/
def maxNumber : Nat := 4294967295

/-- a number -/
def number? (s : List Char) : Option (Nat × List Char) :=
  match token? Char.isDigit s with
  | some (digits, rest) => (Text.readUnsigned? 10 maxNumber digits).map fun n => (n, rest)
  | none => none

/-- a name -/
def name? (s : List Char) : Option (List Char × List Char) := token? Char.isAlpha s

/-- the sign `x` with blanks on both sides -/
def sign? (x : Char) (s : List Char) : Option (List Char) :=
  match skipSpace s with
  | c :: r => if c == x then some (skipSpace r) else none
  | [] => none

/-! ## Items -/

/-- two things of one kind with a hyphen between them -/
def pair? {α : Type} (thing? : List Char → Option (α × List Char)) (s : List Char) :
    Option ((α × α) × List Char) := do
  let (a, s) ← thing? s
  let s ← sign? '-' s
  let (b, s) ← thing? s
  return ((a, b), s)

/-- a span: everything, a range of numbers, a number, or a range of names -/
def span? (s : List Char) : Option (Span × List Char) :=
  ((sign? '*' s).map fun r => (.all, r))
  <|> ((pair? number? s).map fun ((a, b), r) => (.range a b, r))
  <|> ((number? s).map fun (n, r) => (.point n, r))
  <|> ((pair? name? s).map fun ((a, b), r) => (.names a b, r))

/-- a span, or the question mark, which also stands for everything, where the field has it -/
def spanOrAny? (any : Bool) (s : List Char) : Option (Span × List Char) :=
  (if any then (sign? '?' s).map fun r => (.all, r) else none) <|> span? s

/-- an item: a span with a step, a span, or a name -/
def item? (any : Bool) (s : List Char) : Option (Item × List Char) :=
  (do
    let (span, r) ← spanOrAny? any s
    let r ← sign? '/' r
    let (step, r) ← number? r
    return (.stepped span step, r))
  <|> ((spanOrAny? any s).map fun (span, r) => (.span span, r))
  <|> ((name? s).map fun (n, r) => (.name n, r))

/-- further items, each behind a comma; a comma without an item behind it is left where it is -/
def moreItems (any : Bool) (s : List Char) : List Item × List Char :=
  match s with
  | ',' :: r =>
    match item? any r with
    | some (item, rest) =>
      if rest.length < r.length then
        let (items, rest) := moreItems any rest
        (item :: items, rest)
      else ([], s)
    | none => ([], s)
  | _ => ([], s)
termination_by s.length
decreasing_by simp only [List.length_cons]; omega

/-- the items of one field -/
def items? (any : Bool) (s : List Char) : Option (List Item × List Char) :=
  (item? any (skipSpace s)).map fun (item, r) =>
    let (items, r) := moreItems any r
    (item :: items, skipSpace r)

/-! ## Fields -/

/-- the fields that have the question mark -/
def hasAny (u : Unit) : Bool := u == .dayOfMonth || u == .dayOfWeek

/-- one field with its values -/
def field? (u : Unit) (s : List Char) : Option (List Nat × List Char) := do
  let (items, s) ← items? (hasAny u) s
  let values ← values? u items
  return (values, s)

/-- a whole expression: six fields and perhaps a year, and nothing behind them -/
def fields? (s : List Char) : Option Fields := do
  let (seconds, s) ← field? .second s
  let (minutes, s) ← field? .minute s
  let (hours, s) ← field? .hour s
  let (daysOfMonth, s) ← field? .dayOfMonth s
  let (months, s) ← field? .month s
  let (daysOfWeek, s) ← field? .dayOfWeek s
  let (years, s) := (field? .year s).getD (Unit.year.all, s)
  if s.isEmpty then return ⟨seconds, minutes, hours, daysOfMonth, months, daysOfWeek, years⟩ else none

end Grammar

/-- the fields of an expression -/
def Fields.parse? (s : List Char) : Option Fields := Grammar.fields? s

end SheetPost.Cron
