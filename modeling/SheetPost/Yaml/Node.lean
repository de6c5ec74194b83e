/-
The content of a YAML document as a tree: scalars, sequences and mappings, with aliases that refer to anchored nodes by
number. A text is a document if its tokens follow the grammar and there is exactly one document in it.
-/
import SheetPost.Yaml.Token

namespace SheetPost.Yaml

/-! ## Trees -/

/-- a node of a document -/
inductive Node where
  | scalar (text : List Char) (style : Style) (tag : Option (List Char))
  | sequence (items : List Node)
  | mapping (pairs : List (Node × Node))
  | alias (number : Nat)
deriving Repr, Inhabited

/-- an empty plain scalar, which stands where a value is missing -/
def Node.empty : Node := .scalar [] .plain none

mutual

/-- the signs that a node is made of: one for a scalar or an alias, two around a collection -/
def Node.size : Node → Nat
  | .scalar .. | .alias _ => 1
  | .sequence items => 2 + sizeItems items
  | .mapping pairs => 2 + sizePairs pairs

/-- the signs of the items of a sequence -/
def sizeItems : List Node → Nat
  | [] => 0
  | n :: r => n.size + sizeItems r

/-- the signs of the pairs of a mapping -/
def sizePairs : List (Node × Node) → Nat
  | [] => 0
  | (k, v) :: r => k.size + v.size + sizePairs r

end

/-- a document: its root, and the anchored nodes in the order in which they begin, each with its number -/
structure Document where
  root : Node
  anchored : Array (Nat × Node)

/-- the node that an alias refers to: of several with its number the one that begins last -/
def Document.target? (d : Document) (number : Nat) : Option Node :=
  (d.anchored.toList.reverse.find? (·.1 == number)).map (·.2)

/-! ## The grammar -/

namespace Grammar

/-- what a reader has before it and what it has seen -/
structure State where
  tokens : List Token
  /-- the handles of tags and what they stand for -/
  handles : List (List Char × List Char)
  /-- the number of each anchor: how many other names were known when it was last set -/
  names : List (List Char × Nat)
  anchored : Array (Nat × Node)

/-- a reader of tokens, which may refuse them -/
abbrev Reader := StateT State Option

/-- the next token -/
def peek : Reader (Option Token) := do return (← get).tokens.head?

/-- past the next token -/
def advance : Reader Unit := modify fun s => { s with tokens := s.tokens.tail }

/-- the next token is `t`, and is passed if so -/
def accept (t : Token) : Reader Bool := do
  if (← peek) == some t then
    advance
    return true
  return false

/-- the handles that need no directive -/
def standardHandles : List (List Char × List Char) :=
  [(['!'], ['!']), (['!', '!'], "tag:yaml.org,2002:".toList)]

/-- the whole tag -/
def resolveTag (handle suffix : List Char) : Reader (List Char) := do
  if handle.isEmpty then return suffix
  match (← get).handles.lookup handle with
  | some lead => return lead ++ suffix
  | none => failure

/-- an anchor is set: its number, and the place of its node -/
def setAnchor (name : List Char) : Reader (Nat × Nat) := do
  let s ← get
  let number := s.names.length
  set { s with names := (name, number) :: s.names.filter (·.1 != name), anchored := s.anchored.push (number, .empty) }
  return (number, s.anchored.size)

/-- an anchor, if one comes next -/
def anchor? : Reader (Option (Nat × Nat)) := do
  match ← peek with
  | some (.anchor name) =>
    advance
    return some (← setAnchor name)
  | _ => return none

/-- a tag, if one comes next -/
def tag? : Reader (Option (List Char)) := do
  match ← peek with
  | some (.tag handle suffix) =>
    advance
    return some (← resolveTag handle suffix)
  | _ => return none

/-- anchor and tag before a node, in either order -/
def properties : Reader (Option (Nat × Nat) × Option (List Char)) := do
  match ← anchor? with
  | some a => return (some a, ← tag?)
  | none =>
    let t ← tag?
    if t.isSome then return (← anchor?, t) else return (none, none)

/-- where a node stands, which says which tokens leave it empty -/
inductive Place where
  | blockEntry
  | flatEntry
  | blockKey
  | blockValue
deriving DecidableEq

/-- a token that shows that no node stands there -/
def Place.endedBy : Place → Option Token → Bool
  | .blockEntry, t => t == some .entry || t == some .blockEnd
  | .flatEntry, t => t == some .entry || t == some .key || t == some .value || t == some .blockEnd
  | .blockKey, t | .blockValue, t => t == some .key || t == some .value || t == some .blockEnd

/-- a token that ends an entry of a flow collection -/
def endsFlow (closing : Token) (t : Option Token) : Bool := t == some .comma || t == some closing

mutual

/-- a node; `block` says whether a block collection may stand here, `flat` whether a sequence may that is not indented
further than the mapping around it -/
def node (fuel : Nat) (block flat : Bool) : Reader Node := do
  match fuel with
  | 0 => failure
  | fuel + 1 =>
    match ← peek with
    | some (.alias name) =>
      advance
      match (← get).names.lookup name with
      | some number => return .alias number
      | none => failure
    | _ =>
      let (anchor, tag) ← properties
      let next ← peek
      let n ←
        match next with
        | some (.scalar text style) =>
          advance
          pure (Node.scalar text style (if tag == some ['!'] then none else tag))
        | some .flowSequence =>
          advance
          pure (Node.sequence (← flowItems fuel true))
        | some .flowMapping =>
          advance
          pure (Node.mapping (← flowPairs fuel true))
        | _ =>
          if flat && next == some .entry then pure (Node.sequence (← flatItems fuel))
          else if block && next == some .blockSequence then
            advance
            pure (Node.sequence (← blockItems fuel))
          else if block && next == some .blockMapping then
            advance
            pure (Node.mapping (← blockPairs fuel))
          else if anchor.isSome || tag.isSome then pure (Node.scalar [] .plain tag)
          else failure
      match anchor with
      | some (number, place) => modify fun s => { s with anchored := s.anchored.setIfInBounds place (number, n) }
      | none => pure ()
      return n

/-- a node of a block collection, or nothing -/
def blockNode (fuel : Nat) (place : Place) : Reader Node := do
  match fuel with
  | 0 => failure
  | fuel + 1 =>
    if place.endedBy (← peek) then return .empty
    else node fuel true (place == .blockKey || place == .blockValue)

/-- the items of a block sequence up to its end -/
def blockItems (fuel : Nat) : Reader (List Node) := do
  match fuel with
  | 0 => failure
  | fuel + 1 =>
    if ← accept .blockEnd then return []
    if ← accept .entry then
      let n ← blockNode fuel .blockEntry
      return n :: (← blockItems fuel)
    failure

/-- the items of a sequence that is not indented; the mapping around it goes on behind them -/
def flatItems (fuel : Nat) : Reader (List Node) := do
  match fuel with
  | 0 => failure
  | fuel + 1 =>
    if ← accept .entry then
      let n ← blockNode fuel .flatEntry
      return n :: (← flatItems fuel)
    return []

/-- the pairs of a block mapping up to its end -/
def blockPairs (fuel : Nat) : Reader (List (Node × Node)) := do
  match fuel with
  | 0 => failure
  | fuel + 1 =>
    if ← accept .blockEnd then return []
    if ← accept .key then
      let k ← blockNode fuel .blockKey
      let v ← if ← accept .value then blockNode fuel .blockValue else pure Node.empty
      return (k, v) :: (← blockPairs fuel)
    failure

/-- a node of a flow collection, or nothing before `closing` or a comma -/
def flowNode (fuel : Nat) (closing : Token) : Reader Node := do
  match fuel with
  | 0 => failure
  | fuel + 1 => if endsFlow closing (← peek) then return .empty else node fuel false false

/-- the value of a pair in a flow collection, if a colon announces one -/
def flowValue (fuel : Nat) (closing : Token) : Reader Node := do
  match fuel with
  | 0 => failure
  | fuel + 1 => if ← accept .value then flowNode fuel closing else return .empty

/-- the items of a flow sequence up to its bracket; a comma must stand before each but the first -/
def flowItems (fuel : Nat) (first : Bool) : Reader (List Node) := do
  match fuel with
  | 0 => failure
  | fuel + 1 =>
    if ← accept .flowSequenceEnd then return []
    if !first then
      if !(← accept .comma) then failure
      if ← accept .flowSequenceEnd then return []
    if ← accept .key then
      let next ← peek
      let k ←
        if next == some .value || endsFlow .flowSequenceEnd next then
          -- whatever ends the missing key is passed with it
          advance
          pure Node.empty
        else node fuel false false
      let v ← flowValue fuel .flowSequenceEnd
      return .mapping [(k, v)] :: (← flowItems fuel false)
    let n ← node fuel false false
    return n :: (← flowItems fuel false)

/-- the pairs of a flow mapping up to its brace -/
def flowPairs (fuel : Nat) (first : Bool) : Reader (List (Node × Node)) := do
  match fuel with
  | 0 => failure
  | fuel + 1 =>
    if ← accept .flowMappingEnd then return []
    if !first then
      if !(← accept .comma) then failure
      if ← accept .flowMappingEnd then return []
    if ← accept .key then
      let k ← if (← peek) == some .value then pure Node.empty else flowNode fuel .flowMappingEnd
      let v ← flowValue fuel .flowMappingEnd
      return (k, v) :: (← flowPairs fuel false)
    let k ← node fuel false false
    return (k, .empty) :: (← flowPairs fuel false)

end

/-! ## Documents -/

/-- the directives before a document: at most one version, which must be 1.1 or 1.2, and each handle once -/
def directives (versionSeen : Bool) (own : List (List Char)) : List Token → Option (Bool × List (List Char × List Char))
    × List Token
  | .version major minor :: r =>
    if versionSeen || major != 1 || (minor != 1 && minor != 2) then (none, [])
    else
      match directives true own r with
      | (some (_, handles), rest) => (some (true, handles), rest)
      | failed => failed
  | .tagHandle name lead :: r =>
    if own.contains name then (none, [])
    else
      match directives versionSeen (name :: own) r with
      | (some (_, handles), rest) => (some (true, (name, lead) :: handles), rest)
      | failed => failed
  | tokens => (some (versionSeen || !own.isEmpty, []), tokens)

/-- the tokens behind the marks that may end a document -/
def afterMarks : List Token → List Token
  | .documentEnd :: r => afterMarks r
  | tokens => tokens

/-- the root of a document between its marks -/
def root (fuel : Nat) : Reader Node := do
  match ← peek with
  | none | some .documentEnd | some .documentStart | some (.version ..) | some (.tagHandle ..) => return .empty
  | _ => node fuel true false

/-- the root at the front of the tokens, where `explicit` says that its mark has been passed -/
def rootNode (fuel : Nat) (explicit : Bool) : Reader Node :=
  if explicit then root fuel else node fuel true false

end Grammar

/-- the document that the tokens are; no tokens are none -/
def Document.ofTokens? (tokens : List Token) : Option Document :=
  match Grammar.directives false [] tokens with
  | (none, _) => none
  | (some (directed, handles), rest) =>
    let explicit := rest.head? == some .documentStart
    if directed && !explicit then none
    else
      let body := if explicit then rest.tail else rest
      let fuel := 4 * tokens.length + 4
      let start : Grammar.State := ⟨body, handles ++ Grammar.standardHandles, [], #[]⟩
      match (Grammar.rootNode fuel explicit).run start with
      | some (root, s) =>
        if (Grammar.afterMarks s.tokens).isEmpty then some ⟨root, s.anchored⟩ else none
      | none => none

/-- the document that a text is -/
def Document.ofText? (s : List Char) : Option Document :=
  (Token.ofText? s).bind fun tokens => Document.ofTokens? tokens.toList

end SheetPost.Yaml
