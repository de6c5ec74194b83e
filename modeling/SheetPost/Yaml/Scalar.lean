/-
Scalars as they stand in a YAML text: plain, in single or double quotes, literal (`|`) and folded (`>`). Each reader
gives the text that the scalar stands for and the cursor behind it, or nothing if the scalar is not well-formed.

A line break within a plain or quoted scalar folds: one break becomes a space, of several the first is dropped.
-/
import SheetPost.Text.Numeral
import SheetPost.Yaml.Cursor

namespace SheetPost.Yaml

/-- how a scalar was written -/
inductive Style where
  | plain
  | quoted
  | literal
  | folded
deriving DecidableEq, Repr

namespace Scalar

/-! ## Gaps: blanks and breaks between words -/

/-- what stands between two words -/
structure Gap where
  /-- blanks, as long as no break has come -/
  blanks : List Char
  /-- the first break -/
  first : List Char
  /-- the breaks after the first -/
  more : List Char
  /-- a break has come -/
  broken : Bool

def Gap.none : Gap := ⟨[], [], [], false⟩

/-- the text that a gap stands for -/
def Gap.text (g : Gap) : List Char :=
  if !g.broken then g.blanks
  else if g.first == ['\n'] then (if g.more.isEmpty then [' '] else g.more)
  else g.first ++ g.more

/-- the gap at the cursor; below column `indent` a tab behind a break is refused -/
def gap? (indent : Nat) (g : Gap) (c : Cursor) : Option (Gap × Cursor) :=
  match _hb : c.break? with
  | some (x, d) =>
    if g.broken then gap? indent { g with more := g.more ++ [x] } d
    else gap? indent { g with blanks := [], first := [x], broken := true } d
  | none =>
    match _hr : c.rest with
    | x :: _ =>
      if isBlank x then
        if g.broken then
          if x == '\t' && c.column < indent then Option.none else gap? indent g c.skip
        else gap? indent { g with blanks := g.blanks ++ [x] } c.skip
      else some (g, c)
    | [] => some (g, c)
termination_by c.left
decreasing_by
  · exact Cursor.break?_lt _hb
  · exact Cursor.break?_lt _hb
  · exact Cursor.skip_lt (by simp [_hr])
  · exact Cursor.skip_lt (by simp [_hr])

/-! ## Plain scalars -/

/-- the brackets and the comma, which end a plain scalar within a flow collection -/
def isFlowSign (c : Char) : Bool := [',', '[', ']', '\x7b', '\x7d'].contains c

/-- one word of a plain scalar, and the text behind it; a colon right before a flow sign is refused -/
def plainWord? (flow : Bool) : List Char → Option (List Char × List Char)
  | [] => some ([], [])
  | c :: r =>
    if isBlank c || isBreak c then some ([], c :: r)
    else if flow && c == ':' && (r.head?.map fun x => isFlowSign x || x == '?').getD false then Option.none
    else if (c == ':' && endsWord r) || (flow && isFlowSign c) then some ([], c :: r)
    else (plainWord? flow r).map fun (word, rest) => (c :: word, rest)

/-- the text of a plain scalar behind `text` and a gap; with it goes whether the last thing read was a line break -/
def plainFrom? (flow : Bool) (indent : Nat) (text : List Char) (g : Gap) (c : Cursor) :
    Option (List Char × Bool × Cursor) :=
  if c.atAnyMark || c.at? '#' then some (text, g.broken, c)
  else
    match plainWord? flow c.rest with
    | Option.none => Option.none
    | some (word, _) =>
      if word.isEmpty then some (text, g.broken, c)
      else
        let text := text ++ (g.text ++ word)
        let d := c.skipMany word.length
        if !d.is fun x => isBlank x || isBreak x then some (text, false, d)
        else
          match gap? indent .none d with
          | Option.none => Option.none
          | some (g, e) =>
            if !flow && e.column < indent then some (text, g.broken, e)
            else if e.left < c.left then plainFrom? flow indent text g e
            else Option.none
termination_by c.left

/-- a plain scalar; outside flow collections its further lines must reach the column `indent` -/
def plain? (flow : Bool) (indent : Nat) (c : Cursor) : Option (List Char × Bool × Cursor) :=
  plainFrom? flow indent [] .none c

/-! ## Quoted scalars -/

/-- the character behind a backslash, where one letter stands for one character -/
def escape? (c : Char) : Option Char :=
  match c with
  | '0' => some '\x00'
  | 'a' => some '\x07'
  | 'b' => some '\x08'
  | 't' | '\t' => some '\t'
  | 'n' => some '\n'
  | 'v' => some '\x0b'
  | 'f' => some '\x0c'
  | 'r' => some '\r'
  | 'e' => some '\x1b'
  | ' ' => some ' '
  | '"' => some '"'
  | '/' => some '/'
  | '\\' => some '\\'
  | 'N' => some (Char.ofNat 0x85)
  | '_' => some (Char.ofNat 0xA0)
  | 'L' => some (Char.ofNat 0x2028)
  | 'P' => some (Char.ofNat 0x2029)
  | _ => none

/-- the character of a code in hexadecimal digits -/
def coded? (digits : List Char) : Option Char :=
  match Text.readDigits? 16 digits with
  | some n => if n < 0xD800 || (0xDFFF < n && n ≤ 0x10FFFF) then some (Char.ofNat n) else Option.none
  | Option.none => Option.none

/-- how many digits a code has, by the letter behind the backslash -/
def codeLength? (c : Char) : Option Nat :=
  match c with
  | 'x' => some 2
  | 'u' => some 4
  | 'U' => some 8
  | _ => none

/-- one character of a quoted scalar at the front of a text, and how many characters it takes; no character at a blank,
a break, the closing quote, or a backslash before a break; nothing if an escape is not well-formed -/
def quotedChar? (single : Bool) (s : List Char) : Option (Option (Char × Nat)) :=
  match s with
  | [] => some Option.none
  | c :: r =>
    if isBlank c || isBreak c then some Option.none
    else if single then
      if c == '\'' then some (if r.head? == some '\'' then some ('\'', 2) else Option.none) else some (some (c, 1))
    else if c == '"' then some Option.none
    else if c == '\\' then
      match r with
      | [] => Option.none
      | e :: r =>
        if isBreak e then some Option.none
        else
          match escape? e with
          | some x => some (some (x, 2))
          | Option.none =>
            match codeLength? e with
            | some n => if r.length < n then Option.none else (coded? (r.take n)).map fun x => some (x, n + 2)
            | Option.none => Option.none
    else some (some (c, 1))

/-- a character of a quoted scalar takes at least one character of the text -/
theorem quotedChar?_pos {single : Bool} {s : List Char} {x : Char} {n : Nat}
    (h : quotedChar? single s = some (some (x, n))) : 0 < n ∧ s ≠ [] := by
  unfold quotedChar? at h
  split at h
  · simp at h
  · refine ⟨?_, List.cons_ne_nil _ _⟩
    repeat' split at h
    all_goals simp_all
    all_goals omega

/-- one word of a quoted scalar, and the cursor behind it -/
def quotedWord? (single : Bool) (c : Cursor) : Option (List Char × Cursor) :=
  match _h : quotedChar? single c.rest with
  | Option.none => Option.none
  | some Option.none => some ([], c)
  | some (some (x, n)) => (quotedWord? single (c.skipMany n)).map fun (word, e) => (x :: word, e)
termination_by c.left
decreasing_by
  obtain ⟨hn, hs⟩ := quotedChar?_pos _h
  exact Cursor.skipMany_lt hs hn

/-- the text of a quoted scalar behind `text`, with the cursor behind the closing quote -/
def quotedFrom? (single : Bool) (text : List Char) (c : Cursor) : Option (List Char × Cursor) :=
  if c.atAnyMark || c.rest.isEmpty then Option.none
  else
    match quotedWord? single c with
    | Option.none => Option.none
    | some (word, d) =>
      let text := text ++ word
      -- a backslash before a break takes the break away, and with it the blanks behind it
      let (g, d) :=
        if d.at? '\\' then
          match d.skip.break? with
          | some (_, e) => ({ Gap.none with broken := true }, e)
          | Option.none => (Gap.none, d)
        else (Gap.none, d)
      if d.at? (if single then '\'' else '"') then some (text, d.skip)
      else
        match gap? 0 g d with
        | Option.none => Option.none
        | some (g, e) => if e.left < c.left then quotedFrom? single (text ++ g.text) e else Option.none
termination_by c.left

/-- a quoted scalar from its opening quote on -/
def quoted? (single : Bool) (c : Cursor) : Option (List Char × Cursor) := quotedFrom? single [] c.skip

/-! ## Literal and folded scalars -/

/-- what becomes of the line breaks at the end of a block scalar -/
inductive Chomp where
  | strip
  | clip
  | keep
deriving DecidableEq, Repr

/-- the sign for the breaks at the end -/
def chomp? (c : Cursor) : Option Chomp :=
  if c.at? '+' then some .keep else if c.at? '-' then some .strip else Option.none

/-- the digit for the indentation, which is not zero -/
def indentDigit (c : Cursor) : Option Nat := c.rest.head?.bind (Text.digitValue? 10)

/-- the signs behind `|` or `>`, in either order -/
def header? (c : Cursor) : Option (Chomp × Option Nat × Cursor) :=
  match chomp? c with
  | some chomp =>
    match indentDigit c.skip with
    | some 0 => Option.none
    | some n => some (chomp, some n, c.skip.skip)
    | Option.none => some (chomp, Option.none, c.skip)
  | Option.none =>
    match indentDigit c with
    | some 0 => Option.none
    | some n =>
      match chomp? c.skip with
      | some chomp => some (chomp, some n, c.skip.skip)
      | Option.none => some (.clip, some n, c.skip)
    | Option.none => some (.clip, Option.none, c)

/-- the empty lines at the cursor, with the widest indentation seen and the cursor at the next line that is not empty;
indentation is taken up to the column `indent`, or all of it if none is known yet; a tab in its place is refused -/
def emptyLines? (indent : Option Nat) (widest : Nat) (breaks : List Char) (c : Cursor) :
    Option (List Char × Nat × Cursor) :=
  let inside (column : Nat) : Bool := indent.all fun n => decide (column < n)
  match _hr : c.rest with
  | [] => some (breaks, max widest c.column, c)
  | x :: _ =>
    if x == ' ' && inside c.column then emptyLines? indent widest breaks c.skip
    else if x == '\t' && inside c.column then Option.none
    else
      match _hb : c.break? with
      | some (x, d) => emptyLines? indent (max widest c.column) (breaks ++ [x]) d
      | Option.none => some (breaks, max widest c.column, c)
termination_by c.left
decreasing_by
  · exact Cursor.skip_lt (by simp [_hr])
  · exact Cursor.break?_lt _hb

/-- a block scalar's text so far -/
structure Block where
  text : List Char
  /-- the break that ended the last line -/
  last : List Char
  /-- the empty lines behind it -/
  empty : List Char
  /-- the last line began with a blank -/
  blank : Bool

/-- the breaks between two lines: folded into a space where neither line begins with a blank -/
def Block.joint (folded : Bool) (b : Block) (blank : Bool) : List Char :=
  if folded && b.last == ['\n'] && !b.blank && !blank then
    (if b.empty.isEmpty then [' '] else []) ++ b.empty
  else b.last ++ b.empty

/-- the lines of a block scalar that begin in the column `indent` -/
def blockFrom? (folded : Bool) (indent : Nat) (b : Block) (c : Cursor) : Option (Block × Cursor) :=
  if c.column == indent && !c.rest.isEmpty then
    let blank := c.is isBlank
    let text := b.text ++ b.joint folded blank
    let (line, d) := c.span fun x => !isBreak x
    let (last, e) := match d.break? with
      | some (x, e) => ([x], e)
      | Option.none => ([], d)
    match emptyLines? (some indent) 0 [] e with
    | Option.none => Option.none
    | some (empty, _, f) =>
      let b := ⟨text ++ line, last, empty, blank⟩
      if f.left < c.left then blockFrom? folded indent b f else some (b, f)
  else some (b, c)
termination_by c.left

/-- a literal or folded scalar from its sign on, within a collection indented by `parent` (−1 for none) -/
def block? (folded : Bool) (parent : Int) (c : Cursor) : Option (List Char × Cursor) :=
  match header? c.skip with
  | Option.none => Option.none
  | some (chomp, digit, d) =>
    let (_, d) := d.span isBlank
    let (_, d) := if d.at? '#' then d.span (fun x => !isBreak x) else ([], d)
    if !endsLine d.rest then Option.none
    else
      let d := (d.break?.map (·.2)).getD d
      let known := digit.map fun n => if 0 ≤ parent then parent.toNat + n else n
      match emptyLines? known 0 [] d with
      | Option.none => Option.none
      | some (empty, widest, d) =>
        let indent := known.getD (max widest (max (parent + 1).toNat 1))
        match blockFrom? folded indent ⟨[], [], empty, false⟩ d with
        | Option.none => Option.none
        | some (b, e) =>
          let tail := match chomp with
            | .strip => []
            | .clip => b.last
            | .keep => b.last ++ b.empty
          some (b.text ++ tail, e)

end Scalar

end SheetPost.Yaml
