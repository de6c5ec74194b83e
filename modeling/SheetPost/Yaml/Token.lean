/-
Tokens of a YAML text. Block collections have no brackets in the text: their tokens come from indentation, and a mapping
may show itself only at the colon behind its first key. For that a place where a key may begin is remembered, and the
tokens that open the mapping are put in there once the colon is found, on the same line and within 1024 characters.
-/
import SheetPost.Text.Utf8
import SheetPost.Yaml.Scalar

namespace SheetPost.Yaml

/-- the signs and words of YAML -/
inductive Token where
  | version (major minor : Nat)
  | tagHandle (name lead : List Char)
  | documentStart
  | documentEnd
  | blockSequence
  | blockMapping
  | blockEnd
  | flowSequence
  | flowSequenceEnd
  | flowMapping
  | flowMappingEnd
  | entry
  | comma
  | key
  | value
  | alias (name : List Char)
  | anchor (name : List Char)
  | tag (handle suffix : List Char)
  | scalar (text : List Char) (style : Style)
deriving DecidableEq, Repr

namespace Token

/-! ## Names, tags and directives -/

/-- the name of an anchor or alias behind its sign -/
def name? (c : Cursor) : Option (List Char × Cursor) :=
  let (name, d) := c.span isWord
  if !name.isEmpty && (endsWord d.rest || d.is fun x => ['?', ':', ',', ']', '\x7d', '%', '@', '\x60'].contains x) then
    some (name, d)
  else none

/-- a character of a tag; brackets and commas only where the tag stands in angle brackets -/
def isTagChar (verbatim : Bool) (c : Char) : Bool :=
  isWord c || [';', '/', '?', ':', '@', '&', '=', '+', '$', '.', '%', '!', '~', '*', '\'', '(', ')'].contains c ||
    (verbatim && [',', '[', ']'].contains c)

/-- the bytes of a tag's characters, with percent escapes read -/
def tagBytes? : List Char → Option (List UInt8)
  | [] => some []
  | '%' :: a :: b :: r =>
    match Text.digitValue? 16 a, Text.digitValue? 16 b, tagBytes? r with
    | some x, some y, some bytes => some (UInt8.ofNat (x * 16 + y) :: bytes)
    | _, _, _ => none
  | '%' :: _ => none
  | c :: r => (tagBytes? r).map fun bytes => String.utf8EncodeChar c ++ bytes

/-- the end of a tag at the cursor -/
def tagRest? (verbatim : Bool) (c : Cursor) : Option (List Char × Cursor) :=
  let (run, d) := c.span (isTagChar verbatim)
  ((tagBytes? run).bind Text.Utf8.decode?).map fun s => (s, d)

/-- the handle of a tag: `!`, words, and perhaps another `!` -/
def handle? (c : Cursor) : Option (List Char × Cursor) :=
  if c.at? '!' then
    let (word, d) := c.skip.span isWord
    if d.at? '!' then some ('!' :: (word ++ ['!']), d.skip) else some ('!' :: word, d)
  else none

/-- a tag: handle and suffix, where an empty handle means that the suffix is the whole tag -/
def tag? (flow : Bool) (c : Cursor) : Option (Token × Cursor) := do
  let (token, d) ←
    if c.skip.at? '<' then do
      let (s, d) ← tagRest? true c.skip.skip
      if s.isEmpty || !d.at? '>' then none else some (Token.tag [] s, d.skip)
    else do
      let (handle, d) ← handle? c
      let (s, d) ← tagRest? false d
      if handle.length > 1 && handle.getLast? == some '!' then
        if s.isEmpty then none else some (Token.tag handle s, d)
      else
        let suffix := handle.tail ++ s
        some (if suffix.isEmpty then Token.tag [] ['!'] else Token.tag ['!'] suffix, d)
  if endsWord d.rest || (flow && d.at? ',') then some (token, d) else none

/-- a number of at most nine digits -/
def shortNumber? (c : Cursor) : Option (Nat × Cursor) :=
  let (digits, d) := c.span Char.isDigit
  if digits.length > 9 then none else (Text.readDigits? 10 digits).map fun n => (n, d)

/-- what a directive says -/
def directiveValue? (name : List Char) (c : Cursor) : Option (Token × Cursor) :=
  let (_, c) := c.span isBlank
  if name == "YAML".toList then do
    let (major, d) ← shortNumber? c
    if !d.at? '.' then none else
    let (minor, d) ← shortNumber? d.skip
    return (.version major minor, d)
  else if name == "TAG".toList then do
    let (handle, d) ← handle? c
    if (handle.length > 1 && handle.getLast? != some '!') || !d.is isBlank then none else
    let (_, d) := d.span isBlank
    let (lead, d) ← tagRest? true d
    if lead.isEmpty || !endsWord d.rest then none else
    return (.tagHandle handle lead, d)
  else none

/-- a directive, with its line -/
def directive? (c : Cursor) : Option (Token × Cursor) := do
  let (name, d) := c.skip.span isWord
  if name.isEmpty || !endsWord d.rest then none else
  let (token, d) ← directiveValue? name d
  let (_, d) := d.span isBlank
  let (_, d) := if d.at? '#' then d.span (fun x => !isBreak x) else ([], d)
  if endsLine d.rest then some (token, (d.break?.map (·.2)).getD d) else none

/-! ## The state of a scan -/

/-- a place where a key may have begun -/
structure KeyPlace where
  /-- how many tokens stand before it -/
  before : Nat
  index : Nat
  line : Nat
  column : Nat
  /-- a mapping is open at this column, so it must turn out to be a key -/
  required : Bool
deriving DecidableEq, Repr

/-- the tokens so far and what the next one depends on -/
structure Scan where
  cursor : Cursor
  tokens : Array Token
  /-- the column of the innermost block collection, −1 outside all of them -/
  indent : Int
  /-- those of the collections around it -/
  outer : List Int
  /-- a key may begin here -/
  keyAllowed : Bool
  /-- the place of a possible key for each open flow collection, the innermost first, and for the block context -/
  keys : List (Option KeyPlace)

namespace Scan

/-- the front of a text -/
def start (s : List Char) : Scan := ⟨.start s, #[], -1, [], true, [none]⟩

/-- the scan is within a flow collection -/
def inFlow (s : Scan) : Bool := s.keys.length > 1

/-- the place of a possible key -/
def key (s : Scan) : Option KeyPlace := s.keys.head?.bind id

/-- another place, or none, instead -/
def setKey (s : Scan) (k : Option KeyPlace) : Scan := { s with keys := k :: s.keys.tail }

/-- one more token, and the cursor behind it -/
def push (s : Scan) (t : Token) (c : Cursor) : Scan := { s with tokens := s.tokens.push t, cursor := c }

/-- the blocks indented further than `column` end here -/
def unroll (column : Int) (tokens : Array Token) (indent : Int) : List Int → Array Token × Int × List Int
  | [] => if indent > column then (tokens.push .blockEnd, -1, []) else (tokens, indent, [])
  | outer :: more =>
    if indent > column then unroll column (tokens.push .blockEnd) outer more else (tokens, indent, outer :: more)

/-- the block collections that the column closes; flow collections close by their brackets -/
def dedent (s : Scan) (column : Int) : Scan :=
  if s.inFlow then s
  else
    let (tokens, indent, outer) := unroll column s.tokens s.indent s.outer
    { s with tokens := tokens, indent := indent, outer := outer }

/-- a block collection opens if the column is further in; its token goes behind the first `before` ones -/
def roll (s : Scan) (column : Nat) (before : Nat) (t : Token) : Scan :=
  if s.inFlow || (column : Int) ≤ s.indent then s
  else { s with outer := s.indent :: s.outer, indent := column, tokens := s.tokens.insertIdxIfInBounds before t }

/-- no key begins at the remembered place; a required one must not be given up -/
def dropKey? (s : Scan) : Option Scan :=
  match s.key with
  | some k => if k.required then none else some (s.setKey none)
  | none => some s

/-- a key may begin at the cursor -/
def saveKey? (s : Scan) : Option Scan :=
  if s.keyAllowed then
    let c := s.cursor
    let required := !s.inFlow && s.indent == (c.column : Int)
    (s.dropKey?).map fun s => s.setKey (some ⟨s.tokens.size, c.index, c.line, c.column, required⟩)
  else some s

/-- the longest distance between a key and its colon -/
def keyReach : Nat := 1024

/-- the place can still become a key -/
def isFresh (c : Cursor) (k : KeyPlace) : Bool := k.line == c.line && c.index ≤ k.index + keyReach

/-- places too far back are given up, and none of them may be required -/
def forgetKeys? (s : Scan) : Option Scan :=
  if s.keys.any fun k => k.any fun k => k.required && !isFresh s.cursor k then none
  else some { s with keys := s.keys.map fun k => k.filter (isFresh s.cursor) }

/-! ## Blanks between tokens -/

/-- blanks, comments and breaks before the next token; outside flow collections a break allows a key again. A byte order
mark at the front of a line is passed, and takes a column -/
def toToken (s : Scan) : Scan :=
  let c := s.cursor
  match _hr : c.rest with
  | [] => s
  | x :: _ =>
    if x == ' ' || ((s.inFlow || !s.keyAllowed) && x == '\t') || (c.column == 0 && x.toNat == 0xFEFF) then
      toToken { s with cursor := c.skip }
    else
      let d := if x == '#' then (c.span fun x => !isBreak x).2 else c
      match d.break? with
      | some (_, e) =>
        if e.left < c.left then toToken { s with cursor := e, keyAllowed := s.keyAllowed || !s.inFlow } else s
      | none => { s with cursor := d }
termination_by s.cursor.left
decreasing_by
  · exact Cursor.skip_lt (by simp [c, _hr])
  · assumption

/-! ## Tokens one by one -/

/-- a sign that stands at the front of a line and closes all blocks -/
def document? (s : Scan) (t : Token) : Option Scan :=
  ((s.dedent (-1)).dropKey?).map fun s => { s with keyAllowed := false }.push t (s.cursor.skipMany 3)

/-- a directive -/
def directive? (s : Scan) : Option Scan := do
  let s ← (s.dedent (-1)).dropKey?
  let (t, c) ← Token.directive? s.cursor
  return { s with keyAllowed := false }.push t c

/-- a bracket that opens a flow collection -/
def openFlow? (s : Scan) (t : Token) : Option Scan :=
  (s.saveKey?).map fun s => { s with keys := none :: s.keys, keyAllowed := true }.push t s.cursor.skip

/-- a bracket that closes one; outside all of them it is left to the grammar to refuse it -/
def closeFlow? (s : Scan) (t : Token) : Option Scan :=
  (s.dropKey?).map fun s =>
    { s with keys := if s.inFlow then s.keys.tail else s.keys, keyAllowed := false }.push t s.cursor.skip

/-- a comma -/
def comma? (s : Scan) : Option Scan :=
  (s.dropKey?).map fun s => { s with keyAllowed := true }.push .comma s.cursor.skip

/-- outside flow collections, a sign that may open a block collection stands where a key may begin -/
def opens? (s : Scan) (t : Token) : Option Scan :=
  if s.inFlow then some s
  else if s.keyAllowed then some (s.roll s.cursor.column s.tokens.size t)
  else none

/-- the hyphen of a sequence -/
def entry? (s : Scan) : Option Scan := do
  let s ← s.opens? .blockSequence
  let s ← s.dropKey?
  return { s with keyAllowed := true }.push .entry s.cursor.skip

/-- the question mark before a key -/
def questionMark? (s : Scan) : Option Scan := do
  let s ← s.opens? .blockMapping
  let s ← s.dropKey?
  return { s with keyAllowed := !s.inFlow }.push .key s.cursor.skip

/-- the colon: behind a remembered place it makes that a key, else it goes with a question mark before -/
def colon? (s : Scan) : Option Scan :=
  match s.key with
  | some k =>
    let s := { s with tokens := s.tokens.insertIdxIfInBounds k.before .key }
    let s := (s.roll k.column k.before .blockMapping).setKey none
    some ({ s with keyAllowed := false }.push .value s.cursor.skip)
  | none =>
    (s.opens? .blockMapping).map fun s => { s with keyAllowed := !s.inFlow }.push .value s.cursor.skip

/-- an alias, an anchor, a tag or a quoted scalar: any of them may begin a key -/
def node? (s : Scan) (read? : Cursor → Option (Token × Cursor)) : Option Scan := do
  let s ← s.saveKey?
  let (t, c) ← read? s.cursor
  return { s with keyAllowed := false }.push t c

/-- a literal or folded scalar -/
def blockScalar? (s : Scan) (folded : Bool) : Option Scan := do
  let s ← s.dropKey?
  let (text, c) ← Scalar.block? folded s.indent s.cursor
  return { s with keyAllowed := true }.push (.scalar text (if folded then .folded else .literal)) c

/-- a plain scalar; one that ends behind a break allows a key to begin -/
def plainScalar? (s : Scan) : Option Scan := do
  let s ← s.saveKey?
  let (text, broken, c) ← Scalar.plain? s.inFlow (s.indent + 1).toNat s.cursor
  return { s with keyAllowed := broken }.push (.scalar text .plain) c

/-- the sign at the cursor, one of those that no plain scalar begins with -/
def isSign (c : Char) : Bool :=
  ['-', '?', ':', ',', '[', ']', '\x7b', '\x7d', '#', '&', '*', '!', '|', '>', '\'', '"', '%', '@', '\x60'].contains c

/-- the next token, begun by the character `x` with `after` behind it -/
def token? (s : Scan) (x : Char) (after : List Char) : Option Scan :=
  let c := s.cursor
  if c.column == 0 && x == '%' then s.directive?
  else if c.atMark '-' then s.document? .documentStart
  else if c.atMark '.' then s.document? .documentEnd
  else if x == '[' then s.openFlow? .flowSequence
  else if x == '\x7b' then s.openFlow? .flowMapping
  else if x == ']' then s.closeFlow? .flowSequenceEnd
  else if x == '\x7d' then s.closeFlow? .flowMappingEnd
  else if x == ',' then s.comma?
  else if x == '-' && endsWord after then s.entry?
  else if x == '?' && (s.inFlow || endsWord after) then s.questionMark?
  else if x == ':' && (s.inFlow || endsWord after) then s.colon?
  else if x == '*' then s.node? fun c => (name? c.skip).map fun (n, d) => (.alias n, d)
  else if x == '&' then s.node? fun c => (name? c.skip).map fun (n, d) => (.anchor n, d)
  else if x == '!' then s.node? (tag? s.inFlow)
  else if x == '|' && !s.inFlow then s.blockScalar? false
  else if x == '>' && !s.inFlow then s.blockScalar? true
  else if x == '\'' then s.node? fun c => (Scalar.quoted? true c).map fun (t, d) => (.scalar t .quoted, d)
  else if x == '"' then s.node? fun c => (Scalar.quoted? false c).map fun (t, d) => (.scalar t .quoted, d)
  else if (!isSign x && !isBlank x) || (x == '-' && !(after.head?.map isBlank).getD false) ||
      (!s.inFlow && (x == '?' || x == ':') && !endsWord after) then
    s.plainScalar?
  else none

/-- all tokens up to the end of the text, where every block ends -/
def finish? (s : Scan) : Option (Array Token) :=
  match s.toToken.forgetKeys? with
  | none => none
  | some t =>
    match t.cursor.rest with
    | [] => ((t.dedent (-1)).dropKey?).map (·.tokens)
    | x :: after =>
      match (t.dedent t.cursor.column).token? x after with
      | none => none
      | some u => if u.cursor.left < s.cursor.left then finish? u else none
termination_by s.cursor.left

end Scan

/-- the tokens of a text -/
def ofText? (s : List Char) : Option (Array Token) := if s.all isAllowed then (Scan.start s).finish? else none

end Token

end SheetPost.Yaml
