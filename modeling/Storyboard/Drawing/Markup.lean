/-! # Markup

    A document is a tree of elements with attributes and texts. `write` gives
    its text. Attribute values and texts are escaped one character at a time,
    so they can hold anything and yet end only where the tree says. -/

namespace Storyboard

/-- The name of an element and its attributes. -/
structure Tag where
  name       : String
  /-- Names and values, in the order in which they are written. -/
  attributes : List (String × String)
  deriving DecidableEq, Repr, Inhabited

/-- A piece of a document. -/
inductive Markup where
  | text (s : String)
  /-- An element that cannot hold anything. -/
  | leaf (tag : Tag)
  /-- An element around other pieces. -/
  | node (tag : Tag) (inner : List Markup)
  deriving Inhabited

namespace Markup

/-- The five characters that mean something in markup go under a name. -/
def escapeChar (c : Char) : List Char :=
  if c = '&' then "&amp;".toList
  else if c = '<' then "&lt;".toList
  else if c = '>' then "&gt;".toList
  else if c = '"' then "&quot;".toList
  else if c = '\'' then "&apos;".toList
  else [c]

/-- A text as it stands in a document. -/
def escape (s : String) : List Char := s.toList.flatMap escapeChar

/-- An attribute after the blank that sets it off. -/
def writeAttribute (a : String × String) : List Char :=
  ' ' :: a.1.toList ++ '=' :: '"' :: escape a.2 ++ ['"']

/-- The inside of a tag. -/
def writeTag (t : Tag) : List Char := t.name.toList ++ t.attributes.flatMap writeAttribute

mutual

/-- The text of a piece. -/
def write : Markup → List Char
  | .text s => escape s
  | .leaf t => '<' :: writeTag t ++ ['/', '>']
  | .node t inner =>
    '<' :: writeTag t ++ '>' :: writeAll inner ++ '<' :: '/' :: t.name.toList ++ ['>']

/-- The texts of several pieces, one after another. -/
def writeAll : List Markup → List Char
  | [] => []
  | m :: rest => write m ++ writeAll rest

end

/-- The text of a document. -/
def document (m : Markup) : String := String.ofList m.write

end Markup

end Storyboard
