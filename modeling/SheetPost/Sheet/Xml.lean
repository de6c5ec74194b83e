/-
XML trees and their text: elements with attributes and content. An element without content is one tag; text is written
with `&`, `<` and `>` as entities.
-/

namespace SheetPost.Sheet

/-- a piece of XML -/
inductive Xml where
  | element (name : String) (attributes : List (String × String)) (content : List Xml)
  | text (s : List Char)
  /-- markup that is already written -/
  | markup (s : List Char)
deriving Repr

namespace Xml

/-- an element without content -/
def leaf (name : String) (attributes : List (String × String)) : Xml := .element name attributes []

/-- an element without attributes -/
def group (name : String) (content : List Xml) : Xml := .element name [] content

/-- an element that holds one text -/
def word (name value : String) : Xml := .element name [] [.text value.toList]

/-- one character of a text -/
def escape (c : Char) : List Char :=
  match c with
  | '&' => ['&', 'a', 'm', 'p', ';']
  | '<' => ['&', 'l', 't', ';']
  | '>' => ['&', 'g', 't', ';']
  | c => [c]

/-- attributes with a space before each -/
def writeAttributes (attributes : List (String × String)) : List Char :=
  attributes.flatMap fun (name, value) => ' ' :: (name.toList ++ '=' :: '"' :: (value.toList ++ ['"']))

mutual

/-- the text of a piece -/
def write : Xml → List Char
  | .element name attributes [] => '<' :: (name.toList ++ (writeAttributes attributes ++ ['/', '>']))
  | .element name attributes content =>
    '<' :: (name.toList ++ (writeAttributes attributes ++ '>' ::
      (writeAll content ++ '<' :: '/' :: (name.toList ++ ['>']))))
  | .text s => s.flatMap escape
  | .markup s => s

/-- the text of pieces one after the other -/
def writeAll : List Xml → List Char
  | [] => []
  | x :: r => write x ++ writeAll r

end

/-- what stands before the root of a document -/
def declaration : List Char := "<?xml version=\"1.0\" encoding=\"UTF-8\" standalone=\"yes\"?>\n".toList

/-- a document by its root -/
def document (root : Xml) : List Char := declaration ++ write root

end Xml

end SheetPost.Sheet
