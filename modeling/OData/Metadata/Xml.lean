/-
XML elements with attributes, and their text.

Every element stands on a line of its own, indented by two spaces for each level; an element without
content is closed in its own tag.  Attribute values are escaped, so that any text can be one.

* `Xml` — elements;
* `Xml.escape` — a text inside an attribute;
* `Xml.render` — the lines of an element.
-/

set_option relaxedAutoImplicit false
set_option autoImplicit false

namespace OData

/-- An element. -/
inductive Xml where
  /-- An element without content. -/
  | leaf (name : String) (attributes : List (String × String))
  /-- An element with elements inside, of which there may be none. -/
  | node (name : String) (attributes : List (String × String)) (children : List Xml)
deriving Inhabited

namespace Xml

/-- The written form of one character in an attribute. -/
def escapeChar (c : Char) : List Char :=
  if c = '&' then "&amp;".toList
  else if c = '<' then "&lt;".toList
  else if c = '>' then "&gt;".toList
  else if c = '"' then "&quot;".toList
  else if c = '\'' then "&apos;".toList
  else [c]

/-- The written form of a text in an attribute. -/
def escape (text : String) : String := String.ofList (text.toList.flatMap escapeChar)

/-- A name and its attributes, as they stand in a tag. -/
def tag (name : String) (attributes : List (String × String)) : String :=
  attributes.foldl (fun text a => text ++ " " ++ a.1 ++ "=\"" ++ escape a.2 ++ "\"") name

/-- The start of a line at some level. -/
def margin (level : Nat) : String := String.ofList (List.replicate (2 * level) ' ')

mutual

/-- The lines of an element at some level. -/
def render (level : Nat) : Xml → String
  | leaf name attributes => margin level ++ "<" ++ tag name attributes ++ "/>\n"
  | node name attributes children =>
    margin level ++ "<" ++ tag name attributes ++ ">\n" ++ renderAll (level + 1) children ++
      margin level ++ "</" ++ name ++ ">\n"

/-- The lines of several elements at some level. -/
def renderAll (level : Nat) : List Xml → String
  | [] => ""
  | element :: rest => render level element ++ renderAll level rest

end

/-- A document: the declaration, and the lines of its element. -/
def document (element : Xml) : String :=
  "<?xml version=\"1.0\" encoding=\"utf-8\"?>\n" ++ render 0 element

end Xml

end OData
