/-
XML read back: the tags and texts of a document one after the other, with the entities of the texts resolved. The tree
is not built again; `Xml.tokens` says which tags and texts a tree is written with.
-/
import SheetPost.Sheet.Xml
import SheetPost.Text.Search

namespace SheetPost.Sheet

open SheetPost.Text

/-- a tag or a text -/
inductive Token where
  | opening (name : List Char) (attributes : List (List Char × List Char))
  | closing (name : List Char)
  /-- an element without content -/
  | empty (name : List Char) (attributes : List (List Char × List Char))
  | text (s : List Char)
deriving DecidableEq, Repr

/-! ## The tokens of a tree -/

namespace Xml

/-- attributes as they are read back -/
def plainAttributes (attributes : List (String × String)) : List (List Char × List Char) :=
  attributes.map fun (name, value) => (name.toList, value.toList)

mutual

/-- the tokens of a piece; markup that is already written has none of its own -/
def tokens : Xml → List Token
  | .element name attributes [] => [.empty name.toList (plainAttributes attributes)]
  | .element name attributes content =>
    .opening name.toList (plainAttributes attributes) :: (allTokens content ++ [.closing name.toList])
  | .text s => [.text s]
  | .markup _ => []

/-- the tokens of pieces one after the other -/
def allTokens : List Xml → List Token
  | [] => []
  | x :: r => tokens x ++ allTokens r

end

end Xml

namespace Token

/-! ## Texts and attributes -/

/-- the entities that every reader knows -/
def entities : List (List Char × Char) :=
  [("&amp;".toList, '&'), ("&lt;".toList, '<'), ("&gt;".toList, '>'), ("&quot;".toList, '"'), ("&apos;".toList, '\'')]

/-- the entity at the front, and what follows it -/
def entity? (s : List Char) : Option (Char × List Char) :=
  entities.findSome? fun (name, c) => (after? name s).map fun r => (c, r)

/-- a text with its entities resolved; an unknown one is refused -/
def resolve? (s : List Char) : Option (List Char) :=
  match s with
  | [] => some []
  | '&' :: r =>
    match entity? ('&' :: r) with
    | some (c, rest) => if rest.length ≤ r.length then (resolve? rest).map (c :: ·) else none
    | none => none
  | c :: r => (resolve? r).map (c :: ·)
termination_by s.length
decreasing_by all_goals simp only [List.length_cons]; omega

/-- attributes up to the end of a tag -/
def readAttributes? (s : List Char) : Option (List (List Char × List Char)) :=
  match s with
  | [] => some []
  | c :: r =>
    if c != ' ' then none
    else
      match cutAtText ['=', '"'] r with
      | none => none
      | some (name, r') =>
        match cutAt '"' r' with
        | none => none
        | some (value, rest) =>
          if rest.length ≤ r.length then (readAttributes? rest).map ((name, value) :: ·) else none
termination_by s.length
decreasing_by simp only [List.length_cons]; omega

/-- name and attributes between the signs of a tag -/
def readHead? (s : List Char) : Option (List Char × List (List Char × List Char)) :=
  (readAttributes? (s.dropWhile (· != ' '))).map fun attributes => (s.takeWhile (· != ' '), attributes)

/-- the tag between its signs -/
def readTag? (s : List Char) : Option Token :=
  match s with
  | '/' :: name => some (.closing name)
  | s =>
    if s.getLast? = some '/' then (readHead? s.dropLast).map fun (name, attributes) => .empty name attributes
    else (readHead? s).map fun (name, attributes) => .opening name attributes

/-! ## Documents -/

/-- the tags and texts of a document without its declaration -/
def readAll? (s : List Char) : Option (List Token) :=
  match s with
  | [] => some []
  | '<' :: r =>
    match cutAt '>' r with
    | none => none
    | some (tag, rest) =>
      if rest.length ≤ r.length then
        match readTag? tag, readAll? rest with
        | some t, some ts => some (t :: ts)
        | _, _ => none
      else none
  | c :: r =>
    match resolve? (c :: r.takeWhile (· != '<')), readAll? (r.dropWhile (· != '<')) with
    | some t, some ts => some (.text t :: ts)
    | _, _ => none
termination_by s.length
decreasing_by
  · rw [List.length_cons]
    omega
  · exact Nat.lt_succ_of_le (List.dropWhile_suffix _).length_le

/-- a character that XML has a place for -/
def isChar (c : Char) : Bool :=
  c == '\t' || c == '\n' || c == '\r' || 0x20 ≤ c.toNat && c.toNat != 0xFFFE && c.toNat != 0xFFFF

/-- the tags and texts of a document; a character that XML has no place for spoils it -/
def readDocument? (s : List Char) : Option (List Token) :=
  if s.all isChar then (after? Xml.declaration s).bind readAll? else none

end Token

end SheetPost.Sheet
