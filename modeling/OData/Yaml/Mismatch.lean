/-
Why a document does not say what is expected of it, and where.

* `Yaml.Step`, `Yaml.Path` — the place of a node, from the root of the document;
* `Yaml.Found`, `Yaml.Mismatch` — what stands there, and what is wrong with it;
* `Yaml.Mismatch.message`, `Yaml.Path.text` — the words for both.
-/

import OData.Text.Quoted
import OData.Yaml.Data.Basic
import OData.Decimal.Notation

set_option relaxedAutoImplicit false
set_option autoImplicit false

namespace OData.Yaml

/-! ### Places -/

/-- One step from a node to a node in it. -/
inductive Step where
  | member (name : String)
  | item (index : Nat)
  /-- A member whose name is not written in its place. -/
  | unnamed
deriving DecidableEq, Repr

/-- The steps from the root to a node, the last one first. -/
abbrev Path := List Step

/-- The text of a path.  A name follows a point except at the root, and an item of the root has a
point before it. -/
def Path.text : Path → String
  | [] => "."
  | .item index :: path => text path ++ "[" ++ toString index ++ "]"
  | .member name :: path => (if path.isEmpty then "" else text path ++ ".") ++ name
  | .unnamed :: path => (if path.isEmpty then "" else text path ++ ".") ++ "?"

/-! ### Causes -/

/-- What stands where something else is expected. -/
inductive Found where
  | nothing
  | bool (value : Bool)
  | integer (value : Int)
  | decimal (value : Decimal)
  | string (text : String)
  | sequence
  | mapping
  /-- A node with a tag of its own. -/
  | tagged

/-- A text between backquotes. -/
def backquoted (text : String) : String := "`" ++ text ++ "`"

/-- A decimal that shows a point whenever it is finite. -/
def pointed (d : Decimal) : String :=
  let text := d.positional
  if d.isFinite && !text.contains '.' then text ++ ".0" else text

/-- The words for what stands in a place. -/
def Found.label : Found → String
  | nothing => "unit value"
  | bool value => "boolean " ++ backquoted (if value then "true" else "false")
  | integer value => "integer " ++ backquoted (toString value)
  | decimal value => "floating point " ++ backquoted (pointed value)
  | string text => "string " ++ Text.quoted text
  | sequence => "sequence"
  | mapping => "map"
  | tagged => "enum"

/-- What is wrong with a node. -/
inductive Mismatch where
  /-- It is of another kind than expected. -/
  | kind (found : Found) (expected : String)
  /-- It is of the right kind, with a value that cannot be. -/
  | value (found : Found) (expected : String)
  | missingMember (name : String)
  | repeatedMember (name : String)
  /-- It is none of the words that are expected. -/
  | unknownWord (word : String) (first second : String)

/-- The words for what is wrong with a node. -/
def Mismatch.message : Mismatch → String
  | kind found expected => "invalid type: " ++ found.label ++ ", expected " ++ expected
  | value found expected => "invalid value: " ++ found.label ++ ", expected " ++ expected
  | missingMember name => "missing field " ++ backquoted name
  | repeatedMember name => "duplicate field " ++ backquoted name
  | unknownWord word first second =>
    "unknown variant " ++ backquoted word ++ ", expected " ++ backquoted first ++ " or " ++
      backquoted second

end OData.Yaml
