/-
The tags of YAML nodes.

A tag is a text in which a character may be written by its bytes.  Bytes only have to look like
those of a character, so the text may hold some that are none.  What a tag says shows from its whole
text: those of the standard can ask for a basic kind of scalars, and those that begin with an
exclamation mark belong to the document alone.

* `Yaml.TagText` — the text of a tag, `TagText.upToNull` the part of it that counts;
* `Yaml.CoreTag` — the basic kinds of scalars that a tag can ask for;
* `Yaml.Tag`, `Yaml.Tag.ofText` — what tags say;
* `Yaml.ownName?` — the name that a tag of the document's own gives to its node.
-/

set_option relaxedAutoImplicit false
set_option autoImplicit false

namespace OData.Yaml

/-! ### Texts -/

/-- The text of a tag: its characters, with nothing in the place of bytes that are none. -/
abbrev TagText := List (Option Char)

namespace TagText

/-- A text of characters alone. -/
def ofList (cs : List Char) : TagText := cs.map some

/-- The characters of a text, if there is nothing else in it. -/
def toList? (text : TagText) : Option (List Char) := text.mapM id

/-- The part of a text before the first NUL, which ends a tag. -/
def upToNull (text : TagText) : TagText := text.takeWhile (· != some '\x00')

@[simp] theorem toList?_ofList (cs : List Char) : toList? (ofList cs) = some cs := by
  induction cs with
  | nil => rfl
  | cons c cs ih => simp_all [toList?, ofList]

end TagText

/-! ### Tags -/

/-- The basic kinds of scalars that a tag can ask for. -/
inductive CoreTag where
  | null
  | bool
  | int
  | float
deriving DecidableEq, Repr

/-- What the tags of the standard begin with. -/
def coreTagStart : String := "tag:yaml.org,2002:"

namespace CoreTag

/-- The word for a kind in the tags of the standard. -/
def word : CoreTag → String
  | null => "null"
  | bool => "bool"
  | int => "int"
  | float => "float"

/-- The kind that a tag asks for. -/
def ofString? (tag : String) : Option CoreTag :=
  [null, bool, int, float].find? fun kind => tag == coreTagStart ++ kind.word

end CoreTag

/-- A name without the exclamation mark it begins with, if anything follows that. -/
def unmarked : List Char → List Char
  | '!' :: c :: rest => c :: rest
  | cs => cs

/-- What a tag says about its node. -/
inductive Tag where
  /-- A scalar of a basic kind. -/
  | core (kind : CoreTag)
  /-- A name that belongs to the document alone. -/
  | own (name : String)
  /-- Nothing: it begins like a tag of the document's own, but its name is no text. -/
  | garbled
  /-- Nothing that is known here; a scalar under such a tag is its text. -/
  | foreign
deriving DecidableEq, Repr

/-- The tag of a text. -/
def Tag.ofText (text : TagText) : Tag :=
  if text.head? = some (some '!') then
    match text.toList? with
    | some name => .own (String.ofList (unmarked name))
    | none => .garbled
  else
    match text.toList?.bind fun cs => CoreTag.ofString? (String.ofList cs) with
    | some kind => .core kind
    | none => .foreign

/-- The name that the tag of a node gives to it. -/
def ownName? : Option Tag → Option String
  | some (.own name) => some name
  | _ => none

end OData.Yaml
